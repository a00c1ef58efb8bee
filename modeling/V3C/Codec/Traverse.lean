import Mathlib.Algebra.GroupWithZero.Nat
import Mathlib.Data.List.Basic
import Mathlib.Data.List.Forall2
import Mathlib.Data.List.Induction

/-! Loops over a list whose body may have no outcome. -/
namespace Codec

variable {α β : Type}

theorem mapM_eq_some_map {f : α → Option β} {g : α → β} {l : List α}
    (h : ∀ a ∈ l, f a = some (g a)) : l.mapM f = some (l.map g) := by
  induction l with
  | nil => rfl
  | cons a l ih =>
    have hl := ih fun b hb => h b (List.mem_cons_of_mem a hb)
    simp [List.mapM_cons, h a List.mem_cons_self, hl]

theorem mapM_congr_of_mem {f g : α → Option β} {l : List α} (h : ∀ a ∈ l, f a = g a) :
    l.mapM f = l.mapM g := by
  induction l with
  | nil => rfl
  | cons a l ih =>
    have hl := ih fun b hb => h b (List.mem_cons_of_mem a hb)
    rw [List.mapM_cons, List.mapM_cons, h a List.mem_cons_self, hl]

theorem mapM_eq_none_of_mem {f : α → Option β} {l : List α} {a : α} (ha : a ∈ l)
    (h : f a = none) : l.mapM f = none := by
  induction l with
  | nil => simp at ha
  | cons b l ih =>
    rcases List.mem_cons.mp ha with rfl | ha
    · simp [List.mapM_cons, h]
    · rw [List.mapM_cons, ih ha]
      cases f b <;> rfl

theorem allM_eq_some_true {p : α → Option Bool} {l : List α} :
    l.allM p = some true ↔ ∀ a ∈ l, p a = some true := by
  induction l with
  | nil => simp
  | cons a l ih =>
    rw [List.allM_cons, List.forall_mem_cons, ← ih]
    cases p a with
    | none => simp
    | some b => cases b <;> simp

theorem exists_allM {p : α → Option Bool} {l : List α} (h : ∀ a ∈ l, ∃ b, p a = some b) :
    ∃ b, l.allM p = some b := by
  induction l with
  | nil => exact ⟨true, rfl⟩
  | cons a l ih =>
    obtain ⟨first, hfirst⟩ := h a List.mem_cons_self
    obtain ⟨rest, hrest⟩ := ih fun b hb => h b (List.mem_cons_of_mem a hb)
    rw [List.allM_cons, hfirst]
    cases first with
    | false => exact ⟨false, rfl⟩
    | true => exact ⟨rest, hrest⟩

/-- What the body gives at a visited element is in the result. -/
theorem mem_of_mapM_eq_some {f : α → Option β} {l : List α} {a : α} {b : β} {bs : List β}
    (h : l.mapM f = some bs) (ha : a ∈ l) (hb : f a = some b) : b ∈ bs := by
  induction l generalizing bs with
  | nil => simp at ha
  | cons c l ih =>
    obtain ⟨d, hd, h⟩ := Option.bind_eq_some_iff.mp (List.mapM_cons.symm.trans h)
    obtain ⟨ds, hds, h⟩ := Option.bind_eq_some_iff.mp h
    obtain rfl : d :: ds = bs := by simpa using h
    rcases List.mem_cons.mp ha with rfl | ha
    · obtain rfl : d = b := Option.some.inj (hd.symm.trans hb)
      exact List.mem_cons_self
    · exact List.mem_cons_of_mem d (ih hds ha)

theorem exists_of_mapM_eq_some {f : α → Option β} {l : List α} {bs : List β}
    (h : l.mapM f = some bs) {a : α} (ha : a ∈ l) : ∃ b, f a = some b := by
  cases hb : f a with
  | none => rw [mapM_eq_none_of_mem ha hb] at h; cases h
  | some b => exact ⟨b, rfl⟩

/-- What is in the result is what the body gives at some element. -/
theorem exists_mem_of_mapM_eq_some {f : α → Option β} {l : List α} {bs : List β}
    (h : l.mapM f = some bs) {b : β} (hb : b ∈ bs) : ∃ a ∈ l, f a = some b := by
  induction l generalizing bs with
  | nil =>
    obtain rfl : [] = bs := Option.some.inj h
    cases hb
  | cons c l ih =>
    obtain ⟨d, hd, h⟩ := Option.bind_eq_some_iff.mp (List.mapM_cons.symm.trans h)
    obtain ⟨ds, hds, h⟩ := Option.bind_eq_some_iff.mp h
    obtain rfl : d :: ds = bs := by simpa using h
    rcases List.mem_cons.mp hb with rfl | hb
    · exact ⟨c, List.mem_cons_self, hd⟩
    · obtain ⟨a, ha, hab⟩ := ih hds hb
      exact ⟨a, List.mem_cons_of_mem c ha, hab⟩

theorem exists_mapM_eq_some {f : α → Option β} {l : List α} (h : ∀ a ∈ l, ∃ b, f a = some b) :
    ∃ bs, l.mapM f = some bs := by
  induction l with
  | nil => exact ⟨[], rfl⟩
  | cons a l ih =>
    obtain ⟨b, hb⟩ := h a List.mem_cons_self
    obtain ⟨bs, hbs⟩ := ih fun c hc => h c (List.mem_cons_of_mem a hc)
    refine ⟨b :: bs, ?_⟩
    rw [List.mapM_cons, hb, hbs]
    rfl

/-- The results are related to their elements one by one. -/
theorem exists_mapM_forall₂ {f : α → Option β} {R : α → β → Prop} {l : List α}
    (h : ∀ a ∈ l, ∃ b, f a = some b ∧ R a b) :
    ∃ bs, l.mapM f = some bs ∧ List.Forall₂ R l bs := by
  induction l with
  | nil => exact ⟨[], rfl, List.Forall₂.nil⟩
  | cons a l ih =>
    obtain ⟨b, hb, hR⟩ := h a List.mem_cons_self
    obtain ⟨bs, hbs, hRs⟩ := ih fun c hc => h c (List.mem_cons_of_mem a hc)
    refine ⟨b :: bs, ?_, List.Forall₂.cons hR hRs⟩
    rw [List.mapM_cons, hb, hbs]
    rfl

theorem exists_right_of_forall₂ {R : α → β → Prop} {as : List α} {bs : List β}
    (h : List.Forall₂ R as bs) {a : α} (ha : a ∈ as) : ∃ b ∈ bs, R a b := by
  induction h with
  | nil => exact absurd ha List.not_mem_nil
  | @cons a' b as bs hR _ ih =>
    rcases List.mem_cons.mp ha with rfl | ha
    · exact ⟨b, List.mem_cons_self, hR⟩
    · obtain ⟨c, hc, hac⟩ := ih ha
      exact ⟨c, List.mem_cons_of_mem b hc, hac⟩

theorem exists_left_of_forall₂ {R : α → β → Prop} {as : List α} {bs : List β}
    (h : List.Forall₂ R as bs) {b : β} (hb : b ∈ bs) : ∃ a ∈ as, R a b :=
  exists_right_of_forall₂ (List.Forall₂.flip (R := flip R) h) hb

/-- The results stand where their elements do. -/
theorem getElem?_of_mapM_eq_some {f : α → Option β} {l : List α} {bs : List β}
    (h : l.mapM f = some bs) (i : ℕ) : bs[i]? = l[i]?.bind f := by
  induction l generalizing bs i with
  | nil =>
    obtain rfl : [] = bs := Option.some.inj h
    rfl
  | cons c l ih =>
    obtain ⟨d, hd, h⟩ := Option.bind_eq_some_iff.mp (List.mapM_cons.symm.trans h)
    obtain ⟨ds, hds, h⟩ := Option.bind_eq_some_iff.mp h
    obtain rfl : d :: ds = bs := by simpa using h
    cases i with
    | zero => exact hd.symm
    | succ i => exact ih hds i

theorem length_of_mapM_eq_some {f : α → Option β} {l : List α} {bs : List β}
    (h : l.mapM f = some bs) : bs.length = l.length := by
  induction l generalizing bs with
  | nil =>
    obtain rfl : [] = bs := Option.some.inj h
    rfl
  | cons c l ih =>
    obtain ⟨d, hd, h⟩ := Option.bind_eq_some_iff.mp (List.mapM_cons.symm.trans h)
    obtain ⟨ds, hds, h⟩ := Option.bind_eq_some_iff.mp h
    obtain rfl : d :: ds = bs := by simpa using h
    rw [List.length_cons, List.length_cons, ih hds]

/-- The length of the lists that a loop gives, put together. -/
theorem length_flatten_of_mapM_eq_some {f : α → Option (List β)} {count : α → ℕ} {l : List α}
    {bs : List (List β)} (h : l.mapM f = some bs)
    (hf : ∀ a ∈ l, ∀ b, f a = some b → b.length = count a) :
    bs.flatten.length = (l.map count).sum := by
  induction l generalizing bs with
  | nil =>
    obtain rfl : [] = bs := Option.some.inj h
    rfl
  | cons c l ih =>
    obtain ⟨d, hd, h⟩ := Option.bind_eq_some_iff.mp (List.mapM_cons.symm.trans h)
    obtain ⟨ds, hds, h⟩ := Option.bind_eq_some_iff.mp h
    obtain rfl : d :: ds = bs := by simpa using h
    rw [List.flatten_cons, List.length_append, hf c List.mem_cons_self d hd,
      ih hds fun a ha => hf a (List.mem_cons_of_mem c ha), List.map_cons, List.sum_cons]

/-- A loop with an outcome has one for each of its steps. -/
theorem exists_of_foldlM_eq_some {σ : Type} {f : σ → α → Option σ} {l : List α} {s s' : σ}
    (h : l.foldlM f s = some s') {a : α} (ha : a ∈ l) : ∃ s₁ s₂, f s₁ a = some s₂ := by
  induction l generalizing s with
  | nil => cases ha
  | cons b l ih =>
    obtain ⟨next, hnext, h⟩ := Option.bind_eq_some_iff.mp (List.foldlM_cons.symm.trans h)
    rcases List.mem_cons.mp ha with rfl | ha
    · exact ⟨s, next, hnext⟩
    · exact ih h ha

/-- A loop with an invariant of the elements that it has visited. -/
theorem exists_foldlM {σ : Type} {step : σ → α → Option σ} {P : List α → σ → Prop} {l : List α}
    (hstep : ∀ visited a s, visited ++ [a] <+: l → P visited s →
      ∃ s', step s a = some s' ∧ P (visited ++ [a]) s') {s : σ} (h : P [] s) :
    ∃ s', l.foldlM step s = some s' ∧ P l s' := by
  induction l using List.reverseRecOn with
  | nil => exact ⟨s, rfl, h⟩
  | append_singleton l a ih =>
    obtain ⟨s₁, hrun, hinv⟩ := ih fun visited b s₁ hvisited =>
      hstep visited b s₁ (hvisited.trans (List.prefix_append l [a]))
    obtain ⟨s', hs', hinv'⟩ := hstep l a s₁ List.prefix_rfl hinv
    refine ⟨s', ?_, hinv'⟩
    rw [List.foldlM_append, hrun, Option.bind_eq_bind, Option.bind_some, List.foldlM_cons, hs']
    rfl

/-- What each step of a loop keeps holds of the visited elements at its end. -/
theorem inv_of_foldlM_prefix {σ : Type} {step : σ → α → Option σ} {P : List α → σ → Prop}
    {l : List α} {s s' : σ} (hrun : l.foldlM step s = some s') (hstart : P [] s)
    (hstep : ∀ visited a s s', visited ++ [a] <+: l → P visited s → step s a = some s' →
      P (visited ++ [a]) s') : P l s' := by
  induction l using List.reverseRecOn generalizing s' with
  | nil =>
    obtain rfl : s = s' := Option.some.inj hrun
    exact hstart
  | append_singleton l a ih =>
    rw [List.foldlM_append] at hrun
    obtain ⟨s₁, hfirst, hlast⟩ := Option.bind_eq_some_iff.mp hrun
    obtain ⟨s₂, hs₂, hnil⟩ := Option.bind_eq_some_iff.mp (List.foldlM_cons.symm.trans hlast)
    obtain rfl : s₂ = s' := Option.some.inj hnil
    have hinv := ih hfirst fun visited b s s' hb =>
      hstep visited b s s' (hb.trans (List.prefix_append l [a]))
    exact hstep l a s₁ s₂ List.prefix_rfl hinv hs₂

/-- The same for steps that keep it of all elements. -/
theorem inv_of_foldlM {σ : Type} {step : σ → α → Option σ} {P : List α → σ → Prop} {l : List α}
    {s s' : σ} (hrun : l.foldlM step s = some s') (hstart : P [] s)
    (hstep : ∀ visited a s s', a ∈ l → P visited s → step s a = some s' →
      P (visited ++ [a]) s') : P l s' := by
  apply inv_of_foldlM_prefix hrun hstart
  intro visited a s s' hstart
  exact hstep visited a s s' (hstart.subset (List.mem_append_right visited List.mem_cons_self))

/-- Where no two elements share a property, an element that has it is at one index only. -/
theorem existsUnique_getElem? {l : List α} {P : α → Prop}
    (hpairwise : l.Pairwise fun a b => ¬(P a ∧ P b)) (h : ∃ a ∈ l, P a) :
    ∃! j : ℕ, ∃ a, l[j]? = some a ∧ P a := by
  obtain ⟨a, ha, hPa⟩ := h
  obtain ⟨j, hj⟩ := List.mem_iff_getElem?.mp ha
  refine ⟨j, ⟨a, hj, hPa⟩, ?_⟩
  intro j' h
  obtain ⟨a', hj', hPa'⟩ := h
  rw [List.pairwise_iff_getElem] at hpairwise
  obtain ⟨hlt, rfl⟩ := List.getElem?_eq_some_iff.mp hj
  obtain ⟨hlt', rfl⟩ := List.getElem?_eq_some_iff.mp hj'
  rcases Nat.lt_trichotomy j' j with hless | heq | hmore
  · exact absurd ⟨hPa', hPa⟩ (hpairwise j' j hlt' hlt hless)
  · exact heq
  · exact absurd ⟨hPa, hPa'⟩ (hpairwise j j' hlt hlt' hmore)

/-- The element that a prefix ends with, in a list without repetitions. -/
theorem mem_and_notMem_of_prefix {l visited : List α} {a : α} (h : visited ++ [a] <+: l)
    (hnodup : l.Nodup) : a ∈ l ∧ a ∉ visited := by
  have hvisited := hnodup.sublist h.sublist
  constructor
  · exact h.subset (List.mem_append_right visited List.mem_cons_self)
  · intro hmem
    exact (List.nodup_append.mp hvisited).2.2 a hmem a List.mem_cons_self rfl

theorem countP_add {l : List α} {p q r : α → Bool}
    (h : ∀ a ∈ l, (p a).toNat = (q a).toNat + (r a).toNat) :
    l.countP p = l.countP q + l.countP r := by
  induction l with
  | nil => rfl
  | cons a l ih =>
    have ha := h a List.mem_cons_self
    have hl := ih fun b hb => h b (List.mem_cons_of_mem a hb)
    have hcount (b : Bool) : (if b = true then 1 else 0) = b.toNat := by
      cases b <;> rfl
    rw [List.countP_cons, List.countP_cons, List.countP_cons, hl, hcount, hcount, hcount, ha]
    omega

/-- A loop that stores every entry of a list leaves the list. -/
theorem foldlM_set_range {σ : Type} {value : ℕ → α} {f : σ → ℕ → Option σ}
    {e : σ → List α} {P : σ → Prop} (n : ℕ)
    (hstore : ∀ s i, P s → i < n → ∃ s', f s i = some s' ∧ P s' ∧
      e s' = (e s).set i (value i))
    (s : σ) (hs : P s) (hlength : (e s).length = n) :
    ∃ s', (List.range n).foldlM f s = some s' ∧ P s' ∧
      e s' = (List.range n).map value := by
  have hrun : ∀ k ≤ n, ∃ s', (List.range k).foldlM f s = some s' ∧ P s' ∧
      (e s').length = n ∧ ∀ i < k, (e s')[i]? = some (value i) := by
    intro k
    induction k with
    | zero => exact fun _ => ⟨s, rfl, hs, hlength, fun i hi => absurd hi (Nat.not_lt_zero i)⟩
    | succ k ih =>
      intro hk
      obtain ⟨s₁, hfold, hinv, hlen, hentries⟩ := ih (by omega)
      obtain ⟨s₂, hstep, hinv', hset⟩ := hstore s₁ k hinv (by omega)
      refine ⟨s₂, ?_, hinv', ?_, ?_⟩
      · rw [List.range_succ, List.foldlM_append, hfold]
        simp [hstep]
      · rw [hset, List.length_set, hlen]
      · intro i hi
        rw [hset]
        by_cases hik : k = i
        · subst hik
          rw [List.getElem?_set_self (by omega)]
        · rw [List.getElem?_set_ne hik]
          exact hentries i (by omega)
  obtain ⟨s', hfold, hinv, hlen, hentries⟩ := hrun n (Nat.le_refl n)
  refine ⟨s', hfold, hinv, ?_⟩
  apply List.ext_getElem?
  intro i
  by_cases hi : i < n
  · rw [hentries i hi, List.getElem?_map, List.getElem?_range hi]
    rfl
  · rw [List.getElem?_eq_none (by omega), List.getElem?_eq_none (by simp; omega)]

/-! ### The largest number of a list -/

theorem le_foldl_max {l : List ℕ} {start x : ℕ} (h : x = start ∨ x ∈ l) : x ≤ l.foldl max start := by
  induction l generalizing start x with
  | nil =>
    rcases h with rfl | hnil
    · exact Nat.le_refl x
    · cases hnil
  | cons y l ih =>
    rw [List.foldl_cons]
    rcases h with rfl | hmem
    · exact Nat.le_trans (Nat.le_max_left x y) (ih (Or.inl rfl))
    · rcases List.mem_cons.mp hmem with rfl | hmem
      · exact Nat.le_trans (Nat.le_max_right start x) (ih (Or.inl rfl))
      · exact ih (Or.inr hmem)

theorem foldl_max_lt {l : List ℕ} {start bound : ℕ} (hstart : start < bound)
    (h : ∀ x ∈ l, x < bound) : l.foldl max start < bound := by
  induction l generalizing start with
  | nil => exact hstart
  | cons y l ih =>
    rw [List.foldl_cons]
    apply ih
    · exact Nat.max_lt.mpr ⟨hstart, h y List.mem_cons_self⟩
    · exact fun x hx => h x (List.mem_cons_of_mem y hx)

end Codec
