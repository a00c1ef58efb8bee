import V3C.PointSet.PCCPointSet3
import V3C.Text.Decimal
import V3C.Text.Tokens

/-! Point sets in files: what is written, and what is read of a file. -/
namespace V3C
open Text

inductive PCCEndianness
  | PCC_BIG_ENDIAN
  | PCC_LITTLE_ENDIAN
  deriving DecidableEq

def textBytes (text : String) : List UInt8 := text.toList.map fun c => UInt8.ofNat c.toNat

def littleEndian : ℕ → ℕ → List UInt8
  | 0, _ => []
  | count + 1, word => UInt8.ofNat (word % 256) :: littleEndian count (word / 256)

def ofLittleEndian : List UInt8 → ℕ
  | [] => 0
  | byte :: bytes => byte.toNat + 256 * ofLittleEndian bytes

def wordBytes (endianness : PCCEndianness) (count word : ℕ) : List UInt8 :=
  match endianness with
  | .PCC_LITTLE_ENDIAN => littleEndian count word
  | .PCC_BIG_ENDIAN => (littleEndian count word).reverse

def bytesWord (endianness : PCCEndianness) (bytes : List UInt8) : ℕ :=
  match endianness with
  | .PCC_LITTLE_ENDIAN => ofLittleEndian bytes
  | .PCC_BIG_ENDIAN => ofLittleEndian bytes.reverse

/-! ### Writing -/

/-- The digits of a decimal fraction, without zeros at its end. -/
def mantissaText (mantissa : ℕ) : List UInt8 :=
  match (((Nat.digits 10 mantissa).dropWhile (· = 0)).reverse).map digit with
  | [] => []
  | [first] => [first]
  | first :: rest => first :: 46 :: rest

def roundQuotient (n d : ℕ) : ℕ :=
  if 2 * (n % d) < d ∨ 2 * (n % d) = d ∧ n / d % 2 = 0 then n / d else n / d + 1

/-- An integer as a float with 17 significant digits. -/
def floatText (n : ℤ) : List UInt8 :=
  if n.natAbs < 10 ^ 17 then decimalInt n
  else
    let exponent := (Nat.digits 10 n.natAbs).length - 1
    let mantissa := roundQuotient n.natAbs (10 ^ (exponent - 16))
    (if n < 0 then [45] else []) ++ mantissaText mantissa ++ [101, 43] ++
      decimal (if mantissa = 10 ^ 17 then exponent + 1 else exponent)

/-- What is written of an attribute of a point. -/
def attributeAt {α β : Type} (present : Bool) (values : List α) (i : ℕ) (write : α → List β) :
    Option (List β) :=
  if present then (values[i]?).map write else some []

namespace PCCPointSet3

def propertyLines (points : PCCPointSet3) : List (List UInt8) :=
  [textBytes "property float x", textBytes "property float y", textBytes "property float z"] ++
  (if points.withNormals then
    [textBytes "property float nx", textBytes "property float ny", textBytes "property float nz"]
    else []) ++
  (if points.withColors then
    [textBytes "property uchar red", textBytes "property uchar green",
      textBytes "property uchar blue"]
    else []) ++
  if points.withReflectances then [textBytes "property uint16 refc"] else []

def formatLine (endianness : PCCEndianness) (asAscii : Bool) : List UInt8 :=
  if asAscii then textBytes "format ascii 1.0"
  else match endianness with
    | .PCC_BIG_ENDIAN => textBytes "format binary_big_endian 1.0"
    | .PCC_LITTLE_ENDIAN => textBytes "format binary_little_endian 1.0"

def headerLines (points : PCCPointSet3) (endianness : PCCEndianness) (asAscii : Bool) :
    List (List UInt8) :=
  [textBytes "ply", formatLine endianness asAscii,
    textBytes "element vertex " ++ decimal points.positions.length] ++ points.propertyLines ++
  [textBytes "element face 0", textBytes "property list uint8 int32 vertex_index",
    textBytes "end_header"]

def asciiWords (points : PCCPointSet3) (i : ℕ) : Option (List (List UInt8)) := do
  let position ← points.positions[i]?
  let normal ← attributeAt points.withNormals points.normals i fun normal =>
    [floatText normal.1, floatText normal.2.1, floatText normal.2.2]
  let color ← attributeAt points.withColors points.colors i fun color =>
    [decimal color.r.toNat, decimal color.g.toNat, decimal color.b.toNat]
  let reflectance ← attributeAt points.withReflectances points.reflectances i fun reflectance =>
    [decimal reflectance.toNat]
  some ([decimalInt position.x, decimalInt position.y, decimalInt position.z] ++ normal ++ color ++
    reflectance)

def spaced : List (List UInt8) → List UInt8
  | [] => []
  | word :: words => word ++ words.flatMap (32 :: ·)

/-- The bytes of a point. -/
def binaryRecord (points : PCCPointSet3) (endianness : PCCEndianness) (i : ℕ) :
    Option (List UInt8) := do
  let position ← points.positions[i]?
  let float := fun n : ℤ => wordBytes endianness 4 (FloatWord.encodeSingle n)
  let normal ← attributeAt points.withNormals points.normals i fun normal =>
    float normal.1 ++ float normal.2.1 ++ float normal.2.2
  let color ← attributeAt points.withColors points.colors i fun color => [color.r, color.g, color.b]
  let reflectance ← attributeAt points.withReflectances points.reflectances i fun reflectance =>
    wordBytes endianness 2 reflectance.toNat
  some (float position.x ++ float position.y ++ float position.z ++ normal ++ color ++ reflectance)

/-- The file that is written. -/
def write (points : PCCPointSet3) (endianness : PCCEndianness) (asAscii : Bool) :
    Option (List UInt8) := do
  let body ← (List.range points.positions.length).mapM fun i =>
    if asAscii then (points.asciiWords i).map fun words => spaced words ++ [10]
    else points.binaryRecord endianness i
  some (unlines 10 (points.headerLines endianness asAscii) ++ body.flatten)

end PCCPointSet3

/-! ### Reading the header -/

/-- `strlen` ends a line at a zero. -/
def getTokens (line : List UInt8) : List (List UInt8) :=
  words (fun c => c = 32 ∨ c = 9 ∨ c = 13) (line.takeWhile (· ≠ 0))

/-- An integer out of range has no definite value. -/
def atoi (token : List UInt8) : Option ℤ :=
  if -2 ^ 31 ≤ parseInt token ∧ parseInt token < 2 ^ 31 then some (parseInt token) else none

structure AttributeInfo where
  name : List UInt8
  byteCount : ℕ
  deriving DecidableEq

def byteCountOf (propertyType : List UInt8) : ℕ :=
  if propertyType = textBytes "float64" then 8
  else if propertyType = textBytes "float" ∨ propertyType = textBytes "float32" then 4
  else if propertyType = textBytes "uint64" then 8
  else if propertyType = textBytes "uint32" then 4
  else if propertyType = textBytes "uint16" then 2
  else if propertyType = textBytes "uchar" ∨ propertyType = textBytes "uint8" then 1
  else if propertyType = textBytes "int64" then 8
  else if propertyType = textBytes "int32" ∨ propertyType = textBytes "int" then 4
  else if propertyType = textBytes "int16" then 2
  else if propertyType = textBytes "char" ∨ propertyType = textBytes "int8" then 1
  else 0

structure PlyHeader where
  isAscii : Bool := false
  version : Scaled 10 := ⟨1, 0⟩
  pointCount : ℤ := 0
  isVertexProperty : Bool := true
  attributesInfo : List AttributeInfo := []
  deriving DecidableEq

inductive HeaderStep
  | next (header : PlyHeader)
  | corrupted
  | endHeader
  deriving DecidableEq

def readFormat (header : PlyHeader) : List (List UInt8) → HeaderStep
  | [format, version] =>
    .next { header with isAscii := format = textBytes "ascii", version := parseNumber version }
  | _ => .corrupted

def readElement (header : PlyHeader) : List (List UInt8) → Option HeaderStep
  | [element, count] =>
    if element = textBytes "vertex" then do
      let pointCount ← atoi count
      some (.next { header with pointCount })
    else some (.next { header with isVertexProperty := false })
  | _ => some .corrupted

def readProperty (header : PlyHeader) : List (List UInt8) → HeaderStep
  | [propertyType, propertyName] =>
    .next { header with
      attributesInfo := header.attributesInfo ++ [⟨propertyName, byteCountOf propertyType⟩] }
  | _ => .corrupted

def readHeaderLine (header : PlyHeader) (line : List UInt8) : Option HeaderStep :=
  match getTokens line with
  | [] => some (.next header)
  | token :: tokens =>
    if token = textBytes "comment" then some (.next header)
    else if token = textBytes "format" then some (readFormat header tokens)
    else if token = textBytes "element" then readElement header tokens
    else if token = textBytes "property" ∧ header.isVertexProperty then
      some (readProperty header tokens)
    else if token = textBytes "end_header" then some .endHeader
    else some (.next header)

def MAX_BUFFER_SIZE : ℕ := 4096

/-- The header, and the lines after it. A line that the buffer does not hold stops the stream: what
comes then is left out. -/
def readHeader : List (List UInt8) → PlyHeader → Option (Option (PlyHeader × List (List UInt8)))
  | [], _ => some none
  | line :: lines, header =>
    if line.length < MAX_BUFFER_SIZE then
      match readHeaderLine header line with
      | none => none
      | some .corrupted => some none
      | some .endHeader => some (some (header, lines))
      | some (.next header) => readHeader lines header
    else none

/-! ### The places of the attributes -/

structure Indices where
  x : Option ℕ := none
  y : Option ℕ := none
  z : Option ℕ := none
  r : Option ℕ := none
  g : Option ℕ := none
  b : Option ℕ := none
  reflectance : Option ℕ := none
  nx : Option ℕ := none
  ny : Option ℕ := none
  nz : Option ℕ := none
  deriving DecidableEq

namespace AttributeInfo

variable (info : AttributeInfo)

def isCoordinate (name : String) : Bool :=
  info.name = textBytes name ∧ (info.byteCount = 8 ∨ info.byteCount = 4 ∨ info.byteCount = 2)

def isColor (name : String) : Bool := info.name = textBytes name ∧ info.byteCount = 1

def isNormal (name : String) : Bool := info.name = textBytes name ∧ info.byteCount = 4

def isReflectance : Bool :=
  (info.name = textBytes "reflectance" ∨ info.name = textBytes "refc") ∧ info.byteCount ≤ 2

end AttributeInfo

def Indices.locate (readNormals : Bool) (indices : Indices) (info : AttributeInfo) (a : ℕ) :
    Indices :=
  if info.isCoordinate "x" then { indices with x := some a }
  else if info.isCoordinate "y" then { indices with y := some a }
  else if info.isCoordinate "z" then { indices with z := some a }
  else if info.isColor "red" then { indices with r := some a }
  else if info.isColor "green" then { indices with g := some a }
  else if info.isColor "blue" then { indices with b := some a }
  else if info.isNormal "nx" ∧ readNormals then { indices with nx := some a }
  else if info.isNormal "ny" ∧ readNormals then { indices with ny := some a }
  else if info.isNormal "nz" ∧ readNormals then { indices with nz := some a }
  else if info.isReflectance then { indices with reflectance := some a }
  else indices

def locateAll (readNormals : Bool) (attributesInfo : List AttributeInfo) : Indices :=
  attributesInfo.zipIdx.foldl (fun indices entry => indices.locate readNormals entry.1 entry.2) {}

namespace Indices

variable (indices : Indices)

def hasCoordinates : Bool := indices.x.isSome && indices.y.isSome && indices.z.isSome
def withColors : Bool := indices.r.isSome && indices.g.isSome && indices.b.isSome
def withNormals : Bool := indices.nx.isSome && indices.ny.isSome && indices.nz.isSome
def withReflectances : Bool := indices.reflectance.isSome

end Indices

/-! ### Reading the points -/

/-- What is read of a point; a number is infinite or no number when it has no value. -/
structure PlyRecord where
  x : Option (Scaled 2) := some ⟨0, 0⟩
  y : Option (Scaled 2) := some ⟨0, 0⟩
  z : Option (Scaled 2) := some ⟨0, 0⟩
  r : UInt8 := 0
  g : UInt8 := 0
  b : UInt8 := 0
  nx : Option (Scaled 2) := some ⟨0, 0⟩
  ny : Option (Scaled 2) := some ⟨0, 0⟩
  nz : Option (Scaled 2) := some ⟨0, 0⟩
  reflectance : UInt16 := 0
  deriving DecidableEq

/-- A file that is too short leaves a value that is not definite. -/
def takeBytes (count : ℕ) (stream : List UInt8) : Option (List UInt8 × List UInt8) :=
  if count ≤ stream.length then some (stream.take count, stream.drop count) else none

/-- A coordinate of two bytes is read as an `uint16_t` and kept as an `int16_t`. -/
def readCoordinate (endianness : PCCEndianness) (byteCount : ℕ) (stream : List UInt8) :
    Option (Option (Scaled 2) × List UInt8) :=
  if byteCount = 2 then (takeBytes 2 stream).map fun (bytes, stream) =>
    (some ⟨(bytesWord endianness bytes : ℤ).bmod (2 ^ 16), 0⟩, stream)
  else if byteCount = 4 then (takeBytes 4 stream).map fun (bytes, stream) =>
    (FloatWord.decode 8 23 (bytesWord endianness bytes), stream)
  else (takeBytes 8 stream).map fun (bytes, stream) =>
    (FloatWord.decode 11 52 (bytesWord endianness bytes), stream)

def readNormal (endianness : PCCEndianness) (byteCount : ℕ) (stream : List UInt8) :
    Option (Option (Scaled 2) × List UInt8) :=
  if byteCount = 4 then (takeBytes 4 stream).map fun (bytes, stream) =>
    (FloatWord.decode 8 23 (bytesWord endianness bytes), stream)
  else (takeBytes 8 stream).map fun (bytes, stream) =>
    (FloatWord.decode 11 52 (bytesWord endianness bytes), stream)

/-- A channel is read into the colours, which are there when all channels are. -/
def readChannel (indices : Indices) (stream : List UInt8) : Option (UInt8 × List UInt8) :=
  if indices.withColors then
    match stream with
    | byte :: stream => some (byte, stream)
    | [] => none
  else none

/-- Normals are read into the normals, which are there when all coordinates are. -/
def readNormalOf (endianness : PCCEndianness) (indices : Indices) (byteCount : ℕ)
    (stream : List UInt8) : Option (Option (Scaled 2) × List UInt8) :=
  if indices.withNormals then readNormal endianness byteCount stream else none

/-- A reflectance at index 1 is read from one byte. Any other one is read to an address that is made
of its value. -/
def readReflectance (indices : Indices) (stream : List UInt8) : Option (UInt16 × List UInt8) :=
  if indices.reflectance = some 1 then
    match stream with
    | byte :: stream => some (byte.toUInt16, stream)
    | [] => none
  else none

def readAttribute (endianness : PCCEndianness) (indices : Indices) (a : ℕ) (info : AttributeInfo)
    (record : PlyRecord) (stream : List UInt8) : Option (PlyRecord × List UInt8) :=
  if indices.x = some a then
    (readCoordinate endianness info.byteCount stream).map fun (x, stream) =>
      ({ record with x }, stream)
  else if indices.y = some a then
    (readCoordinate endianness info.byteCount stream).map fun (y, stream) =>
      ({ record with y }, stream)
  else if indices.z = some a then
    (readCoordinate endianness info.byteCount stream).map fun (z, stream) =>
      ({ record with z }, stream)
  else if indices.r = some a ∧ info.byteCount = 1 then
    (readChannel indices stream).map fun (r, stream) => ({ record with r }, stream)
  else if indices.g = some a ∧ info.byteCount = 1 then
    (readChannel indices stream).map fun (g, stream) => ({ record with g }, stream)
  else if indices.b = some a ∧ info.byteCount = 1 then
    (readChannel indices stream).map fun (b, stream) => ({ record with b }, stream)
  else if indices.nx = some a then
    (readNormalOf endianness indices info.byteCount stream).map fun (nx, stream) =>
      ({ record with nx }, stream)
  else if indices.ny = some a then
    (readNormalOf endianness indices info.byteCount stream).map fun (ny, stream) =>
      ({ record with ny }, stream)
  else if indices.nz = some a then
    (readNormalOf endianness indices info.byteCount stream).map fun (nz, stream) =>
      ({ record with nz }, stream)
  else if indices.reflectance = some a ∧ info.byteCount ≤ 2 then
    (readReflectance indices stream).map fun (reflectance, stream) =>
      ({ record with reflectance }, stream)
  else (takeBytes info.byteCount stream).map fun (_, stream) => (record, stream)

/-- One record of a binary file. -/
def readRecord (endianness : PCCEndianness) (indices : Indices)
    (attributesInfo : List AttributeInfo) (stream : List UInt8) :
    Option (PlyRecord × List UInt8) :=
  attributesInfo.zipIdx.foldlM (fun (state : PlyRecord × List UInt8) entry =>
    readAttribute endianness indices entry.2 entry.1 state.1 state.2) ({}, stream)

/-- A coordinate that an `int16_t` does not hold has no definite value. -/
def toCoordinate (c : ℤ) : Option ℤ := if -2 ^ 15 ≤ c ∧ c < 2 ^ 15 then some c else none

namespace PCCPointSet3

def setPosition (points : PCCPointSet3) (i : ℕ) (position : PCCPoint3D) : PCCPointSet3 :=
  { points with positions := points.positions.set i position }

def setColorAt (points : PCCPointSet3) (i : ℕ) (color : PCCColor3B) : PCCPointSet3 :=
  if points.withColors then { points with colors := points.colors.set i color } else points

def setReflectance (points : PCCPointSet3) (i : ℕ) (reflectance : UInt16) : PCCPointSet3 :=
  if points.withReflectances then
    { points with reflectances := points.reflectances.set i reflectance } else points

def setNormal (points : PCCPointSet3) (i : ℕ) (normal : ℤ × ℤ × ℤ) : PCCPointSet3 :=
  if points.withNormals then { points with normals := points.normals.set i normal } else points

def storeRecord (points : PCCPointSet3) (i : ℕ) (record : PlyRecord) : Option PCCPointSet3 := do
  let x ← record.x.bind fun x => toCoordinate x.trunc
  let y ← record.y.bind fun y => toCoordinate y.trunc
  let z ← record.z.bind fun z => toCoordinate z.trunc
  let nx ← record.nx.bind Scaled.toInt?
  let ny ← record.ny.bind Scaled.toInt?
  let nz ← record.nz.bind Scaled.toInt?
  some ((((points.setPosition i ⟨x, y, z⟩).setColorAt i ⟨record.r, record.g, record.b⟩).setNormal i
    (nx, ny, nz)).setReflectance i record.reflectance)

def readBinary (points : PCCPointSet3) (endianness : PCCEndianness) (indices : Indices)
    (attributesInfo : List AttributeInfo) (pointCount : ℕ) (stream : List UInt8) :
    Option PCCPointSet3 :=
  ((List.range pointCount).foldlM (fun (state : PCCPointSet3 × List UInt8) i => do
    let (record, stream) ← readRecord endianness indices attributesInfo state.2
    let points ← state.1.storeRecord i record
    some (points, stream)) (points, stream)).map Prod.fst

/-- A token at an index of the header. -/
def tokenAt (tokens : List (List UInt8)) (index : Option ℕ) : Option (List UInt8) :=
  index.bind fun index => tokens[index]?

def readColorToken (tokens : List (List UInt8)) (index : Option ℕ) : Option UInt8 := do
  let token ← tokenAt tokens index
  let value ← atoi token
  some (UInt8.ofNat (value % 2 ^ 8).toNat)

def readColorTokens (indices : Indices) (tokens : List (List UInt8)) : Option PCCColor3B := do
  let r ← readColorToken tokens indices.r
  let g ← readColorToken tokens indices.g
  let b ← readColorToken tokens indices.b
  some ⟨r, g, b⟩

def readReflectanceToken (indices : Indices) (tokens : List (List UInt8)) : Option UInt16 := do
  let token ← tokenAt tokens indices.reflectance
  let value ← atoi token
  some (UInt16.ofNat (value % 2 ^ 16).toNat)

def readPositionTokens (indices : Indices) (tokens : List (List UInt8)) : Option PCCPoint3D := do
  let x ← tokenAt tokens indices.x
  let y ← tokenAt tokens indices.y
  let z ← tokenAt tokens indices.z
  let x ← toCoordinate (parseNumber x).trunc
  let y ← toCoordinate (parseNumber y).trunc
  let z ← toCoordinate (parseNumber z).trunc
  some ⟨x, y, z⟩

/-- A point of an ASCII file: normals are not read. -/
def storeTokens (points : PCCPointSet3) (indices : Indices) (i : ℕ) (tokens : List (List UInt8)) :
    Option PCCPointSet3 := do
  let position ← readPositionTokens indices tokens
  let color ← if points.withColors then readColorTokens indices tokens else some default
  let reflectance ← if points.withReflectances then readReflectanceToken indices tokens else some 0
  some (((points.setPosition i position).setColorAt i color).setReflectance i reflectance)

def readAscii (indices : Indices) (attributeCount pointCount : ℕ) :
    List (List UInt8) → ℕ → PCCPointSet3 → Option (Bool × PCCPointSet3)
  | [], _, points => some (true, points)
  | line :: lines, pointCounter, points =>
    if pointCounter < pointCount then
      if line.length < MAX_BUFFER_SIZE then
        let tokens := getTokens line
        if tokens = [] then readAscii indices attributeCount pointCount lines pointCounter points
        else if tokens.length < attributeCount then some (false, points)
        else
          match points.storeTokens indices pointCounter tokens with
          | none => none
          | some points =>
            readAscii indices attributeCount pointCount lines (pointCounter + 1) points
      else none
    else some (true, points)

/-- The bytes of the header of a binary file: it is searched in a buffer that ends at a zero. -/
def headerCount (file : List UInt8) : Option ℕ := do
  let tmp := (file.take MAX_BUFFER_SIZE).takeWhile (· ≠ 0)
  let str ← search (textBytes "end_header") tmp
  let str ← search [10] str
  some (tmp.length - str.length + 1)

/-- The points after a header, in a new point set. -/
def readPoints (endianness : PCCEndianness) (readNormals : Bool) (file : List UInt8)
    (header : PlyHeader) (lines : List (List UInt8)) : Option (Bool × PCCPointSet3) :=
  let indices := locateAll readNormals header.attributesInfo
  if header.version.toInt? ≠ some 1 then some (false, empty)
  else if !indices.hasCoordinates then some (false, empty)
  else if header.pointCount < 0 then none
  else
    let pointCount := header.pointCount.toNat
    let points := { empty with
      withColors := indices.withColors
      withReflectances := indices.withReflectances
      withNormals := indices.withNormals }.resize pointCount
    if header.isAscii then
      readAscii indices header.attributesInfo.length pointCount lines 0 points
    else do
      let count ← headerCount file
      let points ← points.readBinary endianness indices header.attributesInfo pointCount
        (file.drop count)
      some (true, points)

/-- Reads a file into a new point set: whether it could be read, and the point set. -/
def read (endianness : PCCEndianness) (file : List UInt8) (readNormals : Bool) :
    Option (Bool × PCCPointSet3) :=
  match lines 10 file with
  | [] => some (false, empty)
  | line :: lines =>
    if (getTokens (line.take (MAX_BUFFER_SIZE - 1))).head? ≠ some (textBytes "ply") then
      some (false, empty)
    else if line.length < MAX_BUFFER_SIZE then
      match readHeader lines {} with
      | none => none
      | some none => some (false, empty)
      | some (some (header, lines)) => readPoints endianness readNormals file header lines
    else none

end PCCPointSet3

end V3C
