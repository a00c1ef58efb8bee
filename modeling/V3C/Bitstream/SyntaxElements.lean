import V3C.Bitstream.Fields

/-! All descriptors of `PCCBitstream`, first on bit strings and then as the loops over the
byte vector, and sequences of syntax elements. -/
namespace V3C
open Codec

/-- The code `writeS` passes to `write`. Masking with `( 1 << ( bits - 1 ) ) - 1` keeps the
residue of a negative value. At 32 bits the mask and the midpoint leave `int`, and their bits are
taken as they are. -/
def signedCode (value : ℤ) (bits : ℕ) : ℕ :=
  if 0 ≤ value then value.toNat
  else (value % 2 ^ (bits - 1)).toNat ||| 2 ^ (bits - 1)

/-- `code < midPoint ? code : code | ~( midPoint - 1 )`, as an `int32_t`. -/
def signedValue (code bits : ℕ) : ℤ :=
  let midPoint := 2 ^ (bits - 1)
  if code < midPoint then code else Int.bmod (code ||| (2 ^ 32 - midPoint) : ℕ) (2 ^ 32)

def writeS (value : ℤ) (bits : ℕ) : Writer Unit :=
  if 0 < bits then write (signedCode value bits) bits else Writer.fail

def readS (bits : ℕ) : Reader ℤ :=
  if 0 < bits then do
    let code ← read bits
    pure (signedValue code bits)
  else Reader.fail

/-- Zero bits up to a whole byte. -/
def writePadding : Writer Unit := Writer.putAt fun p => List.replicate ((8 - p.val) % 8) false

def readPadding : Reader Unit := do
  let p ← Reader.phase
  let _ ← Reader.take ((8 - p.val) % 8)
  pure ()

/-- Of a negative `char` only the low eight bits are written. -/
def writeString (str : List UInt8) : Writer Unit := do
  writePadding
  Writer.forEach str fun element => write element.toNat 8
  write 0 8

/-- The characters before the next zero, of which at most `fuel` are read. -/
def readChars : ℕ → Reader (List UInt8)
  | 0 => Reader.fail
  | fuel + 1 => do
    let element ← read 8
    if element = 0 then pure []
    else do
      let str ← readChars fuel
      pure (UInt8.ofNat element :: str)

def readString : Reader (List UInt8) := do
  readPadding
  let remaining ← Reader.remaining
  readChars remaining

namespace PCCBitstream

def setPosition (s : PCCBitstream) (bytes bits : ℕ) : PCCBitstream :=
  { s with bytes := bytes, bits := bits }

/-- The loop over `temp` ends within 32 halvings or never. -/
def writeUvlc (value : ℕ) (s : PCCBitstream) : Option PCCBitstream :=
  let code := (value % 2 ^ 32 + 1) % 2 ^ 32
  (uvlcLength 32 code 1).bind fun length =>
    (write 0 (length >>> 1) s).bind fun s => write code ((length + 1) >>> 1) s

/-- `while ( !( code & 1 ) ) { code = read( 1 ); length++; }`. -/
def uvlcPrefix : ℕ → ℕ → ℕ → PCCBitstream → Option (ℕ × PCCBitstream)
  | fuel, code, length, s =>
    if code &&& 1 = 0 then
      match fuel with
      | 0 => none
      | fuel + 1 => (read 1 s).bind fun (code, s) => uvlcPrefix fuel code (length + 1) s
    else some (length, s)

/-- Every iteration takes a bit of the vector. `1 << length` is defined below 32 only; at 31 it
leaves `int`, and `value` takes its residue. -/
def readUvlc (s : PCCBitstream) : Option (ℕ × PCCBitstream) :=
  (read 1 s).bind fun (code, s) =>
    if code = 0 then
      (uvlcPrefix (8 * s.data.length + 1) code 0 s).bind fun (length, s) =>
        if length < 32 then
          (read length s).map fun (value, s) => ((value + (2 ^ length - 1)) % 2 ^ 32, s)
        else none
    else some (0, s)

/-- Twice a code of 2 ^ 30 or more leaves `int`, and `uint32_t` takes its residue. -/
def writeSvlc (value : ℤ) (s : PCCBitstream) : Option PCCBitstream :=
  let code := Int.bmod value (2 ^ 32)
  writeUvlc ((if code ≤ 0 then -code * 2 else code * 2 - 1) % 2 ^ 32).toNat s

def readSvlc (s : PCCBitstream) : Option (ℤ × PCCBitstream) :=
  (readUvlc s).map fun (bits, s) =>
    (if bits &&& 1 ≠ 0 then (bits >>> 1 : ℕ) + 1 else -(bits >>> 1 : ℕ), s)

def writeS (value : ℤ) (bits : ℕ) (s : PCCBitstream) : Option PCCBitstream :=
  if 0 < bits then write (signedCode value bits) bits s else none

def readS (bits : ℕ) (s : PCCBitstream) : Option (ℤ × PCCBitstream) :=
  if 0 < bits then (read bits s).map fun (code, s) => (signedValue code bits, s) else none

/-- `while ( !byteAligned() ) { write( 0, 1 ); }`. -/
def writePadding : ℕ → PCCBitstream → Option PCCBitstream
  | fuel, s =>
    if s.byteAligned then some s
    else
      match fuel with
      | 0 => none
      | fuel + 1 => (write 0 1 s).bind (writePadding fuel)

/-- `while ( !byteAligned() ) { read( 1 ); }`. -/
def readPadding : ℕ → PCCBitstream → Option PCCBitstream
  | fuel, s =>
    if s.byteAligned then some s
    else
      match fuel with
      | 0 => none
      | fuel + 1 => (read 1 s).bind fun (_, s) => readPadding fuel s

def writeChars : List UInt8 → PCCBitstream → Option PCCBitstream
  | [], s => some s
  | element :: str, s => (write element.toNat 8 s).bind (writeChars str)

def writeString (str : List UInt8) (s : PCCBitstream) : Option PCCBitstream :=
  (writePadding 8 s).bind fun s => (writeChars str s).bind (write 0 8)

/-- `while ( element != 0x00 ) { str.push_back( element ); element = read( 8 ); }`. -/
def readChars : ℕ → PCCBitstream → Option (List UInt8 × PCCBitstream)
  | 0, _ => none
  | fuel + 1, s =>
    (read 8 s).bind fun (element, s) =>
      if element = 0 then some ([], s)
      else (readChars fuel s).map fun (str, s) => (UInt8.ofNat element :: str, s)

def readString (s : PCCBitstream) : Option (List UInt8 × PCCBitstream) :=
  (readPadding 8 s).bind fun s => readChars (8 * s.data.length) s

end PCCBitstream

/-- How a value is coded. -/
inductive Descriptor
  | u (n : ℕ)
  | ue
  | se
  | s (bits : ℕ)
  | st
  deriving DecidableEq, Repr

/-- A value with the descriptor it is written with. -/
inductive SyntaxElement
  | u (n : ℕ) (value : UInt32)
  | ue (value : UInt32)
  | se (value : Int32)
  | s (bits : ℕ) (value : Int32)
  | st (str : List UInt8)
  deriving DecidableEq

namespace SyntaxElement

def descriptor : SyntaxElement → Descriptor
  | u n _ => .u n
  | ue _ => .ue
  | se _ => .se
  | s bits _ => .s bits
  | st _ => .st

/-- What the callers of `write` and `writeS` promise. -/
def Admissible : SyntaxElement → Prop
  | u n value => 1 ≤ n ∧ n ≤ 32 ∧ value.toNat < 2 ^ n
  | s bits _ => 1 ≤ bits ∧ bits ≤ 32
  | _ => True

def write : SyntaxElement → Writer Unit
  | u n value => V3C.write value.toNat n
  | ue value => writeUvlc value.toNat
  | se value => writeSvlc value.toInt
  | s bits value => writeS value.toInt bits
  | st str => writeString str

end SyntaxElement

def Descriptor.read : Descriptor → Reader SyntaxElement
  | u n => do
    let value ← V3C.read n
    pure (.u n (UInt32.ofNat value))
  | ue => do
    let value ← readUvlc
    pure (.ue (UInt32.ofNat value))
  | se => do
    let value ← readSvlc
    pure (.se (Int32.ofInt value))
  | s bits => do
    let value ← readS bits
    pure (.s bits (Int32.ofInt value))
  | st => do
    let str ← readString
    pure (.st str)

namespace PCCBitstream

def writeElement : SyntaxElement → PCCBitstream → Option PCCBitstream
  | .u n value => write value.toNat n
  | .ue value => writeUvlc value.toNat
  | .se value => writeSvlc value.toInt
  | .s bits value => writeS value.toInt bits
  | .st str => writeString str

def readElement : Descriptor → PCCBitstream → Option (SyntaxElement × PCCBitstream)
  | .u n, s => (read n s).map fun (value, s) => (.u n (UInt32.ofNat value), s)
  | .ue, s => (readUvlc s).map fun (value, s) => (.ue (UInt32.ofNat value), s)
  | .se, s => (readSvlc s).map fun (value, s) => (.se (Int32.ofInt value), s)
  | .s bits, s => (readS bits s).map fun (value, s) => (.s bits (Int32.ofInt value), s)
  | .st, s => (readString s).map fun (str, s) => (.st str, s)

/-- A sequence of writes, each from where the one before it stopped. -/
def writeElements : List SyntaxElement → PCCBitstream → Option PCCBitstream
  | [], s => some s
  | e :: es, s => (writeElement e s).bind (writeElements es)

def readElements : List Descriptor → PCCBitstream → Option (List SyntaxElement × PCCBitstream)
  | [], s => some ([], s)
  | d :: ds, s =>
    (readElement d s).bind fun (e, s) => (readElements ds s).map fun (es, s) => (e :: es, s)

end PCCBitstream

end V3C
