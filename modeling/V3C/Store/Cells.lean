import Mathlib.Data.List.Basic
import Mathlib.Data.List.Nodup

/-! Stores of cells that are read and written one at a time. A cell that a store does not have
is neither read nor written. -/
namespace Cells

variable {σ κ α : Type}

/-- The laws of reading and writing a cell. -/
structure Lawful (get : σ → κ → Option α) (put : σ → κ → α → Option σ) : Prop where
  put_isSome : ∀ s k a, (put s k a).isSome = (get s k).isSome
  get_put_self : ∀ {s s' k a}, put s k a = some s' → get s' k = some a
  get_put_ne : ∀ {s s' k k' a}, put s k a = some s' → k' ≠ k → get s' k' = get s k'

/-- Writing cells one after the other. -/
def writeAll (put : σ → κ → α → Option σ) (entries : List (κ × α)) (s : σ) : Option σ :=
  entries.foldlM (fun s entry => put s entry.1 entry.2) s

/-- Reading cells one after the other. -/
def readAll (get : σ → κ → Option α) (keys : List κ) (s : σ) : Option (List α) :=
  keys.mapM (get s)

/-- Replacing the values of cells one after the other. -/
def modifyAll (get : σ → κ → Option α) (put : σ → κ → α → Option σ) (f : κ → α → Option α)
    (keys : List κ) (s : σ) : Option σ :=
  keys.foldlM (fun s k => (get s k).bind fun a => (f k a).bind (put s k)) s

variable {get : σ → κ → Option α} {put : σ → κ → α → Option σ}

@[simp] theorem writeAll_nil (s : σ) : writeAll put [] s = some s := rfl

theorem writeAll_cons (entry : κ × α) (entries : List (κ × α)) (s : σ) :
    writeAll put (entry :: entries) s =
      (put s entry.1 entry.2).bind (writeAll put entries) := by
  unfold writeAll
  rw [List.foldlM_cons]
  rfl

theorem writeAll_append (l l' : List (κ × α)) (s : σ) :
    writeAll put (l ++ l') s = (writeAll put l s).bind (writeAll put l') := by
  unfold writeAll
  rw [List.foldlM_append]
  rfl

/-- What each write keeps holds after all of them. -/
theorem inv_of_writeAll {P : σ → Prop} {entries : List (κ × α)} {s s' : σ}
    (h : writeAll put entries s = some s') (hput : ∀ s k a s', P s → put s k a = some s' → P s')
    (hs : P s) : P s' := by
  induction entries generalizing s with
  | nil =>
    obtain rfl : s = s' := Option.some.inj h
    exact hs
  | cons entry entries ih =>
    rw [writeAll_cons] at h
    obtain ⟨next, hnext, h⟩ := Option.bind_eq_some_iff.mp h
    exact ih h (hput s entry.1 entry.2 next hs hnext)

/-- A loop each step of which writes one cell. -/
theorem foldlM_eq_writeAll {β : Type} {step : σ → β → Option σ} {entry : β → κ × α} {l : List β}
    (h : ∀ b ∈ l, ∀ s, step s b = put s (entry b).1 (entry b).2) (s : σ) :
    l.foldlM step s = writeAll put (l.map entry) s := by
  induction l generalizing s with
  | nil => rfl
  | cons b l ih =>
    rw [List.foldlM_cons, List.map_cons, writeAll_cons, h b List.mem_cons_self]
    apply Option.bind_congr
    intro after _
    exact ih (fun c hc => h c (List.mem_cons_of_mem b hc)) after

@[simp] theorem readAll_nil (s : σ) : readAll get [] s = some [] := rfl

theorem readAll_cons (k : κ) (keys : List κ) (s : σ) :
    readAll get (k :: keys) s =
      (get s k).bind fun a => (readAll get keys s).map (a :: ·) := by
  unfold readAll
  rw [List.mapM_cons]
  cases get s k with
  | none => rfl
  | some a => cases List.mapM (get s) keys <;> rfl

theorem readAll_append (keys keys' : List κ) (s : σ) :
    readAll get (keys ++ keys') s =
      (readAll get keys s).bind fun as => (readAll get keys' s).map (as ++ ·) := by
  induction keys with
  | nil =>
    rw [List.nil_append, readAll_nil, Option.bind_some]
    cases readAll get keys' s <;> rfl
  | cons k keys ih =>
    rw [List.cons_append, readAll_cons, readAll_cons, ih]
    cases get s k with
    | none => rfl
    | some a =>
      cases readAll get keys s with
      | none => rfl
      | some as => cases readAll get keys' s <;> rfl

theorem length_of_readAll {keys : List κ} {s : σ} {as : List α}
    (h : readAll get keys s = some as) : as.length = keys.length := by
  induction keys generalizing as with
  | nil =>
    obtain rfl : [] = as := Option.some.inj h
    rfl
  | cons k keys ih =>
    rw [readAll_cons] at h
    obtain ⟨a, -, h⟩ := Option.bind_eq_some_iff.mp h
    obtain ⟨rest, hrest, rfl⟩ := Option.map_eq_some_iff.mp h
    rw [List.length_cons, List.length_cons, ih hrest]

/-- What was read at a position is what the cell there holds. -/
theorem get_of_readAll {keys : List κ} {s : σ} {as : List α} (h : readAll get keys s = some as)
    {n : ℕ} {k : κ} (hk : keys[n]? = some k) : get s k = as[n]? := by
  induction keys generalizing as n with
  | nil => simp at hk
  | cons key keys ih =>
    rw [readAll_cons] at h
    obtain ⟨a, ha, h⟩ := Option.bind_eq_some_iff.mp h
    obtain ⟨rest, hrest, rfl⟩ := Option.map_eq_some_iff.mp h
    cases n with
    | zero =>
      obtain rfl : key = k := by simpa using hk
      exact ha
    | succ n =>
      rw [List.getElem?_cons_succ] at hk ⊢
      exact ih hrest hk

/-- Cells that hold a list of values read as that list. -/
theorem readAll_eq_some {keys : List κ} {s : σ} {as : List α} (hlength : keys.length = as.length)
    (h : ∀ entry ∈ keys.zip as, get s entry.1 = some entry.2) :
    readAll get keys s = some as := by
  induction keys generalizing as with
  | nil =>
    have : as = [] := List.length_eq_zero_iff.mp hlength.symm
    rw [this, readAll_nil]
  | cons k keys ih =>
    cases as with
    | nil => simp at hlength
    | cons a as =>
      have hhead := h (k, a) (by simp)
      have htail : readAll get keys s = some as :=
        ih (by simpa using hlength) fun entry hentry => h entry (by simp [hentry])
      rw [readAll_cons, hhead, htail]
      rfl

namespace Lawful

variable (law : Lawful get put)

include law

theorem get_isSome_put {s s' : σ} {k k' : κ} {a : α} (h : put s k a = some s') :
    (get s' k').isSome = (get s k').isSome := by
  classical
  by_cases hk : k' = k
  · subst hk
    rw [law.get_put_self h, ← law.put_isSome s k' a, h]
    rfl
  · rw [law.get_put_ne h hk]

/-- Writing succeeds where the store has the cells. -/
theorem exists_writeAll {entries : List (κ × α)} {s : σ}
    (h : ∀ entry ∈ entries, (get s entry.1).isSome) : ∃ s', writeAll put entries s = some s' := by
  induction entries generalizing s with
  | nil => exact ⟨s, rfl⟩
  | cons entry entries ih =>
    have hsome : (put s entry.1 entry.2).isSome := by
      rw [law.put_isSome]
      exact h entry List.mem_cons_self
    obtain ⟨s₁, hs₁⟩ := Option.isSome_iff_exists.mp hsome
    obtain ⟨s', hs'⟩ := ih (s := s₁) fun e he => by
      rw [law.get_isSome_put hs₁]
      exact h e (List.mem_cons_of_mem entry he)
    refine ⟨s', ?_⟩
    rw [writeAll_cons, hs₁]
    exact hs'

/-- A cell that is not written keeps its value. -/
theorem get_of_not_mem {entries : List (κ × α)} {s s' : σ}
    (h : writeAll put entries s = some s') {k : κ} (hk : k ∉ entries.map Prod.fst) :
    get s' k = get s k := by
  induction entries generalizing s with
  | nil =>
    obtain rfl : s = s' := Option.some.inj h
    rfl
  | cons entry entries ih =>
    rw [writeAll_cons] at h
    obtain ⟨s₁, hs₁, h⟩ := Option.bind_eq_some_iff.mp h
    rw [List.map_cons, List.mem_cons, not_or] at hk
    rw [ih h hk.2, law.get_put_ne hs₁ hk.1]

/-- Where no cell is written twice, each holds the value that was written. -/
theorem get_of_mem {entries : List (κ × α)} {s s' : σ}
    (h : writeAll put entries s = some s') (hnodup : (entries.map Prod.fst).Nodup)
    {entry : κ × α} (hmem : entry ∈ entries) : get s' entry.1 = some entry.2 := by
  induction entries generalizing s with
  | nil => cases hmem
  | cons first entries ih =>
    rw [writeAll_cons] at h
    obtain ⟨s₁, hs₁, hrest⟩ := Option.bind_eq_some_iff.mp h
    rw [List.map_cons, List.nodup_cons] at hnodup
    rcases List.mem_cons.mp hmem with rfl | hmem
    · rw [law.get_of_not_mem hrest hnodup.1]
      exact law.get_put_self hs₁
    · exact ih hrest hnodup.2 hmem

/-- What a cell holds in the end was there before or was written to it. -/
theorem get_eq_or_mem {entries : List (κ × α)} {s s' : σ}
    (h : writeAll put entries s = some s') (k : κ) :
    get s' k = get s k ∨ ∃ a, (k, a) ∈ entries ∧ get s' k = some a := by
  classical
  induction entries generalizing s with
  | nil =>
    obtain rfl : s = s' := Option.some.inj h
    exact Or.inl rfl
  | cons entry entries ih =>
    rw [writeAll_cons] at h
    obtain ⟨s₁, hs₁, h⟩ := Option.bind_eq_some_iff.mp h
    rcases ih h with hkeep | ⟨a, ha, hget⟩
    · by_cases hk : k = entry.1
      · subst hk
        right
        refine ⟨entry.2, List.mem_cons_self, ?_⟩
        rw [hkeep]
        exact law.get_put_self hs₁
      · left
        rw [hkeep, law.get_put_ne hs₁ hk]
    · exact Or.inr ⟨a, List.mem_cons_of_mem entry ha, hget⟩

/-- Where no cell is replaced twice, each gets its new value, and the others keep theirs. -/
theorem exists_modifyAll {f : κ → α → Option α} {keys : List κ} {s : σ} (hnodup : keys.Nodup)
    (h : ∀ k ∈ keys, ∃ a b, get s k = some a ∧ f k a = some b) :
    ∃ s', modifyAll get put f keys s = some s' ∧
      (∀ k ∈ keys, get s' k = (get s k).bind (f k)) ∧ ∀ k, k ∉ keys → get s' k = get s k := by
  classical
  induction keys generalizing s with
  | nil => exact ⟨s, rfl, fun k hk => absurd hk List.not_mem_nil, fun _ _ => rfl⟩
  | cons key keys ih =>
    obtain ⟨hkey, hnodup⟩ := List.nodup_cons.mp hnodup
    obtain ⟨a, b, ha, hb⟩ := h key List.mem_cons_self
    have hsome : (put s key b).isSome := by
      rw [law.put_isSome, ha]
      rfl
    obtain ⟨s₁, hs₁⟩ := Option.isSome_iff_exists.mp hsome
    have hother : ∀ k, k ≠ key → get s₁ k = get s k := fun k hk => law.get_put_ne hs₁ hk
    have hne : ∀ k ∈ keys, k ≠ key := by
      rintro k hk rfl
      exact hkey hk
    obtain ⟨s', hs', hnew, hold⟩ := ih (s := s₁) hnodup fun k hk => by
      rw [hother k (hne k hk)]
      exact h k (List.mem_cons_of_mem key hk)
    refine ⟨s', ?_, ?_, ?_⟩
    · unfold modifyAll
      rw [List.foldlM_cons, ha, Option.bind_some, hb, Option.bind_some, hs₁]
      exact hs'
    · intro k hk
      rcases List.mem_cons.mp hk with rfl | hk
      · rw [hold k hkey, law.get_put_self hs₁, ha, Option.bind_some, hb]
      · rw [hnew k hk, hother k (hne k hk)]
    · intro k hk
      rw [List.mem_cons, not_or] at hk
      rw [hold k hk.2, hother k hk.1]

end Lawful

/-- A store of list elements. -/
def setAt (xs : List α) (i : ℕ) (a : α) : Option (List α) :=
  if i < xs.length then some (xs.set i a) else none

theorem lawful_setAt : Lawful (fun (xs : List α) i => xs[i]?) setAt where
  put_isSome xs i a := by
    unfold setAt
    split_ifs with h <;> simp [h]
  get_put_self {xs xs' i a} h := by
    unfold setAt at h
    split_ifs at h with hlt
    obtain rfl := Option.some.inj h
    exact List.getElem?_set_self hlt
  get_put_ne {xs xs' i i' a} h hne := by
    unfold setAt at h
    split_ifs at h
    obtain rfl := Option.some.inj h
    exact List.getElem?_set_ne hne.symm

theorem length_setAt {xs xs' : List α} {i : ℕ} {a : α} (h : setAt xs i a = some xs') :
    xs'.length = xs.length := by
  unfold setAt at h
  split_ifs at h
  obtain rfl := Option.some.inj h
  exact List.length_set

theorem length_writeAll_setAt {entries : List (ℕ × α)} {xs xs' : List α}
    (h : writeAll setAt entries xs = some xs') : xs'.length = xs.length := by
  induction entries generalizing xs with
  | nil =>
    obtain rfl : xs = xs' := Option.some.inj h
    rfl
  | cons entry entries ih =>
    rw [writeAll_cons] at h
    obtain ⟨next, hnext, h⟩ := Option.bind_eq_some_iff.mp h
    exact (ih h).trans (length_setAt hnext)

end Cells
