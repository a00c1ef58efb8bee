import V3C.Codec.Writer

/-! Parsers over a finite bit string. A parser that runs past the end has no result. -/
namespace Codec

/-- The bits still to be read, and the phase of the first of them. -/
structure Cursor where
  phase : Phase
  rest : List Bool
  deriving DecidableEq, Repr

abbrev Reader := StateT Cursor Option

namespace Reader

variable {α β : Type}

theorem pure_run (a : α) (c : Cursor) : (pure a : Reader α) c = some (a, c) := rfl

theorem bind_run (r : Reader α) (k : α → Reader β) (c : Cursor) :
    (r >>= k) c = (r c).bind fun (a, c') => k a c' := rfl

theorem bind_run_of_eq_some {r : Reader α} {k : α → Reader β} {c c' : Cursor} {a : α}
    (h : r c = some (a, c')) : (r >>= k) c = k a c' := by
  rw [bind_run, h]
  rfl

theorem bind_run_eq_some {r : Reader α} {k : α → Reader β} {c c'' : Cursor} {b : β} :
    (r >>= k) c = some (b, c'') ↔ ∃ a c', r c = some (a, c') ∧ k a c' = some (b, c'') := by
  rw [bind_run]
  constructor
  · intro h
    obtain ⟨⟨a, c'⟩, hr, hk⟩ := Option.bind_eq_some_iff.mp h
    exact ⟨a, c', hr, hk⟩
  · rintro ⟨a, c', hr, hk⟩
    simp [hr, hk]

/-- No defined outcome. -/
def fail : Reader α := fun _ => none

/-- A value that may have no defined outcome. -/
def ofOption (a : Option α) : Reader α := fun c => a.map (·, c)

/-- The next `n` bits. -/
def take (n : ℕ) : Reader (List Bool) := fun c =>
  if n ≤ c.rest.length then some (c.rest.take n, ⟨advance c.phase n, c.rest.drop n⟩) else none

/-- The number of bits up to the next position of the given phase. -/
def phase : Reader Phase := fun c => some (c.phase, c)

/-- Whether any bit is left. -/
def moreData : Reader Bool := fun c => some (!c.rest.isEmpty, c)

/-- The number of bits left. -/
def remaining : Reader ℕ := fun c => some (c.rest.length, c)

/-- Runs `r` only under the condition; otherwise the value is `d`. -/
def whenElse (c : Bool) (r : Reader α) (d : α) : Reader α := if c then r else pure d

/-- Runs `f` on each index from `i` on, `n` of them. -/
def repeatFrom (i : ℕ) : ℕ → (ℕ → Reader α) → Reader (List α)
  | 0, _ => pure []
  | n + 1, f => do
    let a ← f i
    let as ← repeatFrom (i + 1) n f
    pure (a :: as)

@[simp] theorem whenElse_true (r : Reader α) (d : α) : whenElse true r d = r := rfl

@[simp] theorem whenElse_false (r : Reader α) (d : α) : whenElse false r d = pure d := rfl

@[simp] theorem ofOption_some (a : α) : ofOption (some a) = pure a := rfl

theorem ofOption_run_eq_some {o : Option α} {a : α} {c c' : Cursor} :
    ofOption o c = some (a, c') ↔ o = some a ∧ c' = c := by
  unfold ofOption
  rw [Option.map_eq_some_iff]
  constructor
  · rintro ⟨b, hb, heq⟩
    obtain ⟨rfl, rfl⟩ := Prod.mk.inj heq
    exact ⟨hb, rfl⟩
  · rintro ⟨ha, rfl⟩
    exact ⟨a, ha, rfl⟩

/-- Whatever `r` reads has the property. -/
def Ensures (r : Reader α) (P : α → Prop) : Prop := ∀ c a c', r c = some (a, c') → P a

namespace Ensures

variable {P : α → Prop} {Q : β → Prop}

theorem pure {a : α} (h : P a) : Ensures (Pure.pure a) P := by
  intro c b c' hrun
  obtain ⟨rfl, -⟩ := Prod.mk.inj (Option.some.inj hrun)
  exact h

theorem bind {r : Reader α} {k : α → Reader β} (h : ∀ a, Ensures (k a) Q) :
    Ensures (r >>= k) Q := by
  intro c b c' hrun
  obtain ⟨a, c'', -, hk⟩ := bind_run_eq_some.mp hrun
  exact h a c'' b c' hk

theorem then_bind {r : Reader α} {k : α → Reader β} (h : Ensures r P)
    (hk : ∀ a, P a → Ensures (k a) Q) : Ensures (r >>= k) Q := by
  intro c b c' hrun
  obtain ⟨a, c'', hr, hk'⟩ := bind_run_eq_some.mp hrun
  exact hk a (h c a c'' hr) c'' b c' hk'

theorem whenElse {b : Bool} {r : Reader α} {d : α} (h : Ensures r P) (hd : P d) :
    Ensures (whenElse b r d) P := by
  cases b with
  | true => exact h
  | false => exact Ensures.pure hd

end Ensures

end Reader

end Codec
