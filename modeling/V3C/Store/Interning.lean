import Mathlib.Data.List.Basic

/-! A table that takes a value only if no entry compares equal to it. The comparison may have
no defined outcome, and may be coarser than equality. -/
namespace Interning

variable {α : Type}

/-- The index of the first entry that compares equal. -/
def findEqual (eq : α → α → Option Bool) (a : α) : List α → Option (Option ℕ)
  | [] => some none
  | b :: table => do
    if ← eq a b then some (some 0)
    else do
      let index ← findEqual eq a table
      some (index.map (· + 1))

/-- The table and the index of the entry for the value. -/
def findOrAdd (eq : α → α → Option Bool) (table : List α) (a : α) : Option (List α × ℕ) := do
  match ← findEqual eq a table with
  | some index => some (table, index)
  | none => some (table ++ [a], table.length)

/-- One value after the other. -/
def findOrAddAll (eq : α → α → Option Bool) (table : List α) : List α → Option (List α × List ℕ)
  | [] => some (table, [])
  | a :: as => do
    let (table, index) ← findOrAdd eq table a
    let (table, indices) ← findOrAddAll eq table as
    some (table, index :: indices)

section Sound

variable {eq : α → α → Option Bool} {P : α → Prop} {R : α → α → Prop}

theorem findEqual_sound (hdefined : ∀ a b, P a → P b → ∃ c, eq a b = some c)
    (hsound : ∀ a b, P a → P b → eq a b = some true → R b a) {a : α} (ha : P a)
    {table : List α} (htable : ∀ b ∈ table, P b) :
    ∃ index, findEqual eq a table = some index ∧
      ∀ i, index = some i → ∃ b, table[i]? = some b ∧ R b a := by
  induction table with
  | nil => exact ⟨none, rfl, nofun⟩
  | cons b table ih =>
    have hb : P b := htable b List.mem_cons_self
    obtain ⟨c, hc⟩ := hdefined a b ha hb
    unfold findEqual
    rw [hc, Option.bind_eq_bind, Option.bind_some]
    cases c with
    | true =>
      refine ⟨some 0, rfl, fun i hi => ?_⟩
      obtain rfl := Option.some.inj hi
      exact ⟨b, rfl, hsound a b ha hb hc⟩
    | false =>
      obtain ⟨index, hindex, hfound⟩ := ih fun d hd => htable d (List.mem_cons_of_mem b hd)
      refine ⟨index.map (· + 1), ?_, fun i hi => ?_⟩
      · rw [if_neg Bool.false_ne_true, hindex]
        rfl
      · obtain ⟨j, hj, rfl⟩ := Option.map_eq_some_iff.mp hi
        exact hfound j hj

/-- The entry for a value is related to it, and the entries stay where they are. -/
theorem findOrAdd_sound (hdefined : ∀ a b, P a → P b → ∃ c, eq a b = some c)
    (hsound : ∀ a b, P a → P b → eq a b = some true → R b a) (hrefl : ∀ a, P a → R a a) {a : α}
    (ha : P a) {table : List α} (htable : ∀ b ∈ table, P b) :
    ∃ table' index, findOrAdd eq table a = some (table', index) ∧ table <+: table' ∧
      (∀ b ∈ table', P b) ∧ ∃ b, table'[index]? = some b ∧ R b a := by
  obtain ⟨found, hfind, hfound⟩ := findEqual_sound hdefined hsound ha htable
  unfold findOrAdd
  rw [hfind, Option.bind_eq_bind, Option.bind_some]
  cases found with
  | some index => exact ⟨table, index, rfl, List.prefix_rfl, htable, hfound index rfl⟩
  | none =>
    refine ⟨table ++ [a], table.length, rfl, List.prefix_append _ _, ?_, a, ?_, hrefl a ha⟩
    · intro b hb
      rcases List.mem_append.mp hb with hold | hnew
      · exact htable b hold
      · rwa [List.mem_singleton.mp hnew]
    · exact List.getElem?_concat_length

theorem getElem?_of_prefix {table table' : List α} (h : table <+: table') {i : ℕ} {b : α}
    (hb : table[i]? = some b) : table'[i]? = some b := by
  obtain ⟨rest, rfl⟩ := h
  rwa [List.getElem?_append_left (List.getElem?_eq_some_iff.mp hb).1]

/-- The same along a run: at its end, the entry of each value is related to it. -/
theorem findOrAddAll_sound (hdefined : ∀ a b, P a → P b → ∃ c, eq a b = some c)
    (hsound : ∀ a b, P a → P b → eq a b = some true → R b a) (hrefl : ∀ a, P a → R a a)
    {as : List α} (has : ∀ a ∈ as, P a) {table : List α} (htable : ∀ b ∈ table, P b) :
    ∃ table' indices, findOrAddAll eq table as = some (table', indices) ∧ table <+: table' ∧
      ∀ (j : ℕ) a, as[j]? = some a → ∃ (index : ℕ) (b : α), indices[j]? = some index ∧
        table'[index]? = some b ∧ R b a := by
  induction as generalizing table with
  | nil => exact ⟨table, [], rfl, List.prefix_rfl, nofun⟩
  | cons a as ih =>
    obtain ⟨table₁, index, hadd, hstart, htable₁, b, hb, hrel⟩ :=
      findOrAdd_sound hdefined hsound hrefl (has a List.mem_cons_self) htable
    obtain ⟨table₂, indices, hall, hstart', hrest⟩ :=
      ih (fun d hd => has d (List.mem_cons_of_mem a hd)) htable₁
    refine ⟨table₂, index :: indices, ?_, hstart.trans hstart', fun j d hd => ?_⟩
    · unfold findOrAddAll
      rw [hadd, Option.bind_eq_bind, Option.bind_some]
      dsimp only
      rw [hall]
      rfl
    · cases j with
      | zero =>
        obtain rfl := Option.some.inj hd
        exact ⟨index, b, rfl, getElem?_of_prefix hstart' hb, hrel⟩
      | succ j => exact hrest j d hd

end Sound

end Interning
