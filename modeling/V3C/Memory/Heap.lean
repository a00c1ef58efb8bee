import Mathlib.Data.Int.Basic
import Mathlib.Data.List.Basic
import Mathlib.Tactic.SplitIfs

/-! Memory as separate blocks of bytes, which are allocated, reallocated and freed. -/
namespace Memory

/-- What ends a run without a result. -/
inductive Fault
  | undefined
  | outOfMemory
  | lengthError
  | running
  deriving DecidableEq, Repr

theorem bind_eq_ok {α β : Type} {x : Except Fault α} {f : α → Except Fault β} {b : β} :
    x >>= f = .ok b ↔ ∃ a, x = .ok a ∧ f a = .ok b := by
  cases x with
  | error e => simp [Bind.bind, Except.bind]
  | ok a => simp [Bind.bind, Except.bind]

theorem ok_bind {α β : Type} (a : α) (f : α → Except Fault β) : Except.ok a >>= f = f a := rfl

@[ext]
structure Pointer where
  block : ℕ
  offset : ℕ
  deriving DecidableEq, Repr

/-- A freed block stays in the list as `none`. -/
structure Heap where
  blocks : List (Option (List UInt8))

inductive Placement
  | fails
  | inPlace
  | moved

/-- The choices that are left to an allocator: where a block of a new size goes, and what
the bytes are that it adds. -/
structure Allocator where
  place : Heap → ℕ → Placement
  fresh : UInt8

namespace Heap

def block (h : Heap) (b : ℕ) : Option (List UInt8) := (h.blocks[b]?).join

/-- Pointer arithmetic stays in the block, or one past its end. -/
def move (h : Heap) (p : Pointer) (n : ℤ) : Except Fault Pointer :=
  match h.block p.block with
  | none => .error .undefined
  | some bytes =>
    if 0 ≤ p.offset + n ∧ p.offset + n ≤ bytes.length then
      .ok { p with offset := (p.offset + n).toNat }
    else .error .undefined

def store (h : Heap) (p : Pointer) (bytes : List UInt8) : Except Fault Heap :=
  match h.block p.block with
  | none => .error .undefined
  | some old =>
    if p.offset + bytes.length ≤ old.length then
      let new := old.take p.offset ++ bytes ++ old.drop (p.offset + bytes.length)
      .ok { blocks := h.blocks.set p.block (some new) }
    else .error .undefined

def load (h : Heap) (p : Pointer) (n : ℕ) : Except Fault (List UInt8) :=
  match h.block p.block with
  | none => .error .undefined
  | some bytes =>
    if p.offset + n ≤ bytes.length then .ok ((bytes.drop p.offset).take n)
    else .error .undefined

/-- The content of a block after its size has changed. -/
def resized (A : Allocator) (bytes : List UInt8) (n : ℕ) : List UInt8 :=
  bytes.take n ++ List.replicate (n - bytes.length) A.fresh

def realloc (A : Allocator) (h : Heap) (b n : ℕ) : Except Fault (ℕ × Heap) :=
  match h.block b with
  | none => .error .undefined
  | some bytes =>
    match A.place h n with
    | .fails => .error .outOfMemory
    | .inPlace => .ok (b, { blocks := h.blocks.set b (some (resized A bytes n)) })
    | .moved => .ok (h.blocks.length,
        { blocks := h.blocks.set b none ++ [some (resized A bytes n)] })

theorem lt_length_of_block {h : Heap} {b : ℕ} {bytes : List UInt8}
    (hb : h.block b = some bytes) : b < h.blocks.length := by
  by_contra hout
  rw [block, List.getElem?_eq_none (by omega)] at hb
  simp at hb

theorem block_set_self {blocks : List (Option (List UInt8))} {b : ℕ}
    (x : Option (List UInt8)) (hb : b < blocks.length) :
    block { blocks := blocks.set b x } b = x := by
  simp [block, hb]

theorem block_set_of_ne {blocks : List (Option (List UInt8))} {b c : ℕ}
    (x : Option (List UInt8)) (hne : c ≠ b) :
    block { blocks := blocks.set b x } c = block { blocks := blocks } c := by
  simp [block, List.getElem?_set_ne hne.symm]

theorem resized_length (A : Allocator) (bytes : List UInt8) (n : ℕ) :
    (resized A bytes n).length = n := by
  simp only [resized, List.length_append, List.length_take, List.length_replicate]
  omega

/-- Growing keeps the bytes that are there. -/
theorem take_resized (A : Allocator) {bytes : List UInt8} {n k : ℕ} (hk : k ≤ bytes.length)
    (hn : bytes.length ≤ n) : (resized A bytes n).take k = bytes.take k := by
  rw [resized, List.take_append_of_le_length (by simp only [List.length_take]; omega),
    List.take_take, min_eq_left (by omega)]

theorem move_eq_ok {h : Heap} {p : Pointer} {n : ℤ} {bytes : List UInt8}
    (hb : h.block p.block = some bytes) (hlow : 0 ≤ p.offset + n)
    (hhigh : p.offset + n ≤ bytes.length) :
    h.move p n = .ok { p with offset := (p.offset + n).toNat } := by
  simp only [move, hb, if_pos (And.intro hlow hhigh)]

theorem load_eq_ok {h : Heap} {p : Pointer} {n : ℕ} {bytes : List UInt8}
    (hb : h.block p.block = some bytes) (hn : p.offset + n ≤ bytes.length) :
    h.load p n = .ok ((bytes.drop p.offset).take n) := by
  simp only [load, hb, if_pos hn]

theorem load_length {h : Heap} {p : Pointer} {n : ℕ} {bytes : List UInt8}
    (hl : h.load p n = .ok bytes) : bytes.length = n := by
  unfold load at hl
  cases hb : h.block p.block with
  | none => simp [hb] at hl
  | some all =>
    simp only [hb] at hl
    split_ifs at hl with hn
    cases hl
    simp only [List.length_take, List.length_drop]
    omega

theorem load_freed {h : Heap} {p : Pointer} {n : ℕ} (hb : h.block p.block = none) :
    h.load p n = .error .undefined := by
  simp only [load, hb]

/-- A store inside a block changes the stored bytes and no other block. -/
theorem store_eq_ok {h : Heap} {p : Pointer} {old bytes : List UInt8}
    (hb : h.block p.block = some old) (hfit : p.offset + bytes.length ≤ old.length) :
    ∃ h', h.store p bytes = .ok h' ∧
      h'.block p.block =
        some (old.take p.offset ++ bytes ++ old.drop (p.offset + bytes.length)) ∧
      ∀ c, c ≠ p.block → h'.block c = h.block c := by
  have hstore : h.store p bytes = .ok ⟨h.blocks.set p.block
      (some (old.take p.offset ++ bytes ++ old.drop (p.offset + bytes.length)))⟩ := by
    simp only [store, hb, if_pos hfit]
  refine ⟨_, hstore, ?_, fun c hc => ?_⟩
  · exact block_set_self _ (lt_length_of_block hb)
  · exact block_set_of_ne _ hc

/-- A reallocation keeps the other blocks, and either frees the block or grows it in place. -/
theorem realloc_eq_ok {A : Allocator} {h h' : Heap} {b b' n : ℕ}
    (hr : h.realloc A b n = .ok (b', h')) :
    ∃ bytes, h.block b = some bytes ∧ h'.block b' = some (resized A bytes n) ∧
      (A.place h n = .inPlace ∧ b' = b ∨
        A.place h n = .moved ∧ b' = h.blocks.length ∧ h'.block b = none) ∧
      ∀ c, c ≠ b → c ≠ b' → h'.block c = h.block c := by
  unfold realloc at hr
  cases hb : h.block b with
  | none => simp [hb] at hr
  | some bytes =>
    have hlt := lt_length_of_block hb
    simp only [hb] at hr
    cases hplace : A.place h n with
    | fails => simp [hplace] at hr
    | inPlace =>
      simp only [hplace] at hr
      cases hr
      exact ⟨bytes, rfl, block_set_self _ hlt, .inl ⟨rfl, rfl⟩,
        fun c hc _ => block_set_of_ne _ hc⟩
    | moved =>
      simp only [hplace] at hr
      cases hr
      refine ⟨bytes, rfl, by simp [block], .inr ⟨rfl, rfl, ?_⟩, fun c hc hc' => ?_⟩
      · rw [block, List.getElem?_append_left (by simpa using hlt)]
        exact block_set_self none hlt
      · rcases lt_or_gt_of_ne hc' with hin | hout
        · rw [block, List.getElem?_append_left (by simpa using hin)]
          exact block_set_of_ne none hc
        · rw [block, block, List.getElem?_eq_none (by simp; omega),
            List.getElem?_eq_none (by omega)]

end Heap

end Memory
