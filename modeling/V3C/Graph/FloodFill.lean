import Mathlib.Data.List.Nodup
import Mathlib.Logic.Relation
import V3C.Codec.Traverse

/-! The search of a component by a worklist. Flags say which nodes are free, and the directed edges
are lists of neighbours. -/
namespace FloodFill

/-- The flags of the free nodes, the worklist with its last entry first, and the component. -/
structure Fill where
  flags : List Bool
  fifo : List ℕ
  component : List ℕ

/-- A neighbour that is admitted and free is taken. -/
def visit (admits : ℕ → Option Bool) (s : Fill) (n : ℕ) : Option Fill := do
  let admitted ← admits n
  let free ← s.flags[n]?
  if admitted && free then
    some { flags := s.flags.set n false, fifo := n :: s.fifo, component := s.component ++ [n] }
  else some s

/-- The loop while the worklist has entries. -/
def fill (adj : List (List ℕ)) (admits : ℕ → Option Bool) : ℕ → Fill → Option Fill
  | 0, _ => none
  | fuel + 1, s =>
    match s.fifo with
    | [] => some s
    | current :: fifo => do
      let neighbors ← adj[current]?
      let s ← neighbors.foldlM (visit admits) { s with fifo }
      fill adj admits fuel s

/-- An edge to an admitted node that was free at the start. -/
def Edge (adj : List (List ℕ)) (admits : ℕ → Option Bool) (free : List Bool) (a b : ℕ) : Prop :=
  (∃ neighbors, adj[a]? = some neighbors ∧ b ∈ neighbors) ∧ admits b = some true ∧
    free[b]? = some true

/-- The nodes have neighbours, which are nodes, and it is known which are admitted. -/
structure Defined (adj : List (List ℕ)) (admits : ℕ → Option Bool) (n : ℕ) : Prop where
  length : adj.length = n
  neighbor_lt : ∀ neighbors ∈ adj, ∀ b ∈ neighbors, b < n
  admits : ∀ b < n, ∃ admitted, admits b = some admitted

/-- What holds while the worklist is processed. Behind the nodes that are not in the worklist there
are no other nodes, apart from those in `rest`. -/
structure Filling (adj : List (List ℕ)) (admits : ℕ → Option Bool) (free : List Bool) (seed : ℕ)
    (rest : ℕ → ℕ → Prop) (s : Fill) : Prop where
  length : s.flags.length = free.length
  flags : ∀ n, s.flags[n]? = some true ↔ free[n]? = some true ∧ n ∉ s.component
  nodup : s.component.Nodup
  lt : ∀ n ∈ s.component, n < free.length
  mem_fifo : ∀ n ∈ s.fifo, n ∈ s.component
  head : s.component.head? = some seed
  reach : ∀ n ∈ s.component, Relation.ReflTransGen (Edge adj admits free) seed n
  closed : ∀ a ∈ s.component, a ∉ s.fifo → ∀ b, Edge adj admits free a b →
    b ∈ s.component ∨ rest a b

variable {adj : List (List ℕ)} {admits : ℕ → Option Bool} {free : List Bool} {seed : ℕ}

/-- At the start there is the seed, which is not free. -/
theorem Filling.start (hlt : seed < free.length) (hseed : free[seed]? = some false) :
    Filling adj admits free seed (fun _ _ => False) ⟨free, [seed], [seed]⟩ where
  length := rfl
  flags n := by
    constructor
    · intro hn
      refine ⟨hn, ?_⟩
      intro hmem
      obtain rfl := List.mem_singleton.mp hmem
      rw [hseed] at hn
      cases hn
    · exact And.left
  nodup := List.nodup_singleton seed
  lt n hn := by
    rw [List.mem_singleton.mp hn]
    exact hlt
  mem_fifo n hn := hn
  head := rfl
  reach n hn := by
    rw [List.mem_singleton.mp hn]
  closed a ha hnot := absurd ha hnot

/-- The work that is left: the entries of the worklist and the free nodes. -/
def Fill.work (s : Fill) : ℕ := s.fifo.length + s.flags.count true

theorem count_set_false {flags : List Bool} {n : ℕ} (h : flags[n]? = some true) :
    (flags.set n false).count true + 1 = flags.count true := by
  induction flags generalizing n with
  | nil => cases h
  | cons flag flags ih =>
    cases n with
    | zero =>
      obtain rfl := Option.some.inj h
      rw [List.set_cons_zero, List.count_cons_of_ne (by decide), List.count_cons_self]
    | succ n =>
      have hrest := ih h
      rw [List.set_cons_succ, List.count_cons, List.count_cons]
      omega

section Visit

variable {current b : ℕ} {neighbors : List ℕ} {s : Fill}

/-- A visited neighbour is no longer among those that are left. -/
theorem Filling.visit (h : Filling adj admits free seed
      (fun a c => a = current ∧ c ∈ b :: neighbors) s)
    (hcurrent : current ∈ s.component)
    (hedge : ∃ all, adj[current]? = some all ∧ b ∈ all) (hlt : b < free.length)
    (hadmits : ∃ admitted, admits b = some admitted) :
    ∃ s', visit admits s b = some s' ∧ current ∈ s'.component ∧ s'.work = s.work ∧
      Filling adj admits free seed (fun a c => a = current ∧ c ∈ neighbors) s' := by
  obtain ⟨admitted, hadmits⟩ := hadmits
  have hbound : b < s.flags.length := by rwa [h.length]
  have hflag := List.getElem?_eq_getElem hbound
  generalize s.flags[b] = flag at hflag
  unfold FloodFill.visit
  rw [hadmits, Option.bind_eq_bind, Option.bind_some, hflag, Option.bind_some]
  by_cases htake : (admitted && flag) = true
  · obtain ⟨rfl, rfl⟩ : admitted = true ∧ flag = true := by simpa using htake
    obtain ⟨hfree, hnew⟩ := (h.flags b).mp hflag
    refine ⟨_, rfl, List.mem_append_left _ hcurrent, ?_, ?_⟩
    · have hcount := count_set_false hflag
      unfold Fill.work
      dsimp only
      rw [List.length_cons]
      omega
    · constructor
      · rw [List.length_set]
        exact h.length
      · intro n
        by_cases hn : n = b
        · subst hn
          rw [List.getElem?_set_self hbound]
          constructor
          · exact nofun
          · exact fun hboth => absurd (List.mem_append_right _ List.mem_cons_self) hboth.2
        · rw [List.getElem?_set_ne (Ne.symm hn), h.flags n, List.mem_append, List.mem_singleton,
            not_or]
          exact ⟨fun hboth => ⟨hboth.1, hboth.2, hn⟩, fun hboth => ⟨hboth.1, hboth.2.1⟩⟩
      · apply h.nodup.append (List.nodup_singleton b)
        intro n hn hb
        rw [List.mem_singleton.mp hb] at hn
        exact hnew hn
      · intro n hn
        rcases List.mem_append.mp hn with hold | hb
        · exact h.lt n hold
        · rw [List.mem_singleton.mp hb]
          exact hlt
      · intro n hn
        rcases List.mem_cons.mp hn with rfl | hold
        · exact List.mem_append_right _ List.mem_cons_self
        · exact List.mem_append_left _ (h.mem_fifo n hold)
      · rw [List.head?_append, h.head]
        rfl
      · intro n hn
        rcases List.mem_append.mp hn with hold | hb
        · exact h.reach n hold
        · rw [List.mem_singleton.mp hb]
          exact (h.reach current hcurrent).tail ⟨hedge, hadmits, hfree⟩
      · intro a ha hnot c hc
        rw [List.mem_cons, not_or] at hnot
        have hold : a ∈ s.component := by
          rcases List.mem_append.mp ha with hold | hb
          · exact hold
          · exact absurd (List.mem_singleton.mp hb) hnot.1
        rcases h.closed a hold hnot.2 c hc with hin | hrest
        · exact Or.inl (List.mem_append_left _ hin)
        · rcases List.mem_cons.mp hrest.2 with rfl | hlater
          · exact Or.inl (List.mem_append_right _ List.mem_cons_self)
          · exact Or.inr ⟨hrest.1, hlater⟩
  · refine ⟨s, by rw [if_neg htake], hcurrent, rfl, ?_⟩
    refine { h with closed := ?_ }
    intro a ha hnot c hc
    rcases h.closed a ha hnot c hc with hin | hrest
    · exact Or.inl hin
    · rcases List.mem_cons.mp hrest.2 with rfl | hlater
      · left
        obtain ⟨-, hadmitted, hfree⟩ := hc
        obtain rfl := Option.some.inj (hadmits.symm.trans hadmitted)
        rw [Bool.true_and] at htake
        by_contra hout
        have hset := (h.flags c).mpr ⟨hfree, hout⟩
        exact htake (Option.some.inj (hflag.symm.trans hset))
      · exact Or.inr ⟨hrest.1, hlater⟩

/-- The loop over the neighbours. -/
theorem Filling.visitAll (hdefined : Defined adj admits free.length)
    (h : Filling adj admits free seed (fun a c => a = current ∧ c ∈ neighbors) s)
    (hcurrent : current ∈ s.component)
    (hneighbors : ∀ b ∈ neighbors, ∃ all, adj[current]? = some all ∧ b ∈ all) :
    ∃ s', neighbors.foldlM (FloodFill.visit admits) s = some s' ∧ s'.work = s.work ∧
      Filling adj admits free seed (fun _ _ => False) s' := by
  induction neighbors generalizing s with
  | nil =>
    refine ⟨s, rfl, rfl, { h with closed := ?_ }⟩
    intro a ha hnot c hc
    exact (h.closed a ha hnot c hc).imp_right fun hrest => absurd hrest.2 List.not_mem_nil
  | cons b neighbors ih =>
    have hedge := hneighbors b List.mem_cons_self
    have hlt : b < free.length := by
      obtain ⟨all, hall, hb⟩ := hedge
      exact hdefined.neighbor_lt all (List.mem_of_getElem? hall) b hb
    obtain ⟨s₁, hvisit, hcurrent₁, hwork₁, hfilling⟩ :=
      h.visit hcurrent hedge hlt (hdefined.admits b hlt)
    obtain ⟨s', hfold, hwork, hfilling'⟩ := ih hfilling hcurrent₁
      fun c hc => hneighbors c (List.mem_cons_of_mem b hc)
    refine ⟨s', ?_, hwork.trans hwork₁, hfilling'⟩
    rw [List.foldlM_cons, hvisit]
    exact hfold

/-- The loop ends, with the worklist empty. -/
theorem Filling.exists_fill (hdefined : Defined adj admits free.length)
    (h : Filling adj admits free seed (fun _ _ => False) s) :
    ∃ s', Filling adj admits free seed (fun _ _ => False) s' ∧ s'.fifo = [] ∧
      ∀ fuel, s.work < fuel → fill adj admits fuel s = some s' := by
  generalize hm : s.work = m
  induction m generalizing s with
  | zero =>
    have hnil : s.fifo = [] := by
      apply List.length_eq_zero_iff.mp
      unfold Fill.work at hm
      omega
    refine ⟨s, h, hnil, ?_⟩
    intro fuel hfuel
    obtain ⟨fuel, rfl⟩ := Nat.exists_eq_succ_of_ne_zero (Nat.ne_zero_of_lt hfuel)
    unfold fill
    rw [hnil]
  | succ m ih =>
    cases hfifo : s.fifo with
    | nil =>
      refine ⟨s, h, hfifo, ?_⟩
      intro fuel hfuel
      obtain ⟨fuel, rfl⟩ := Nat.exists_eq_succ_of_ne_zero (Nat.ne_zero_of_lt hfuel)
      unfold fill
      rw [hfifo]
    | cons current fifo =>
      have hcurrent : current ∈ s.component :=
        h.mem_fifo current (by rw [hfifo]; exact List.mem_cons_self)
      have hlt : current < adj.length := by
        rw [hdefined.length]
        exact h.lt current hcurrent
      have hneighbors := List.getElem?_eq_getElem hlt
      generalize adj[current] = neighbors at hneighbors
      have hpopped : Filling adj admits free seed (fun a c => a = current ∧ c ∈ neighbors)
          { s with fifo } := by
        refine { h with mem_fifo := ?_, closed := ?_ }
        · intro n hn
          apply h.mem_fifo
          rw [hfifo]
          exact List.mem_cons_of_mem current hn
        · intro a ha hnot c hc
          by_cases heq : a = current
          · right
            obtain ⟨⟨all, hall, hin⟩, -, -⟩ := hc
            rw [heq, hneighbors] at hall
            obtain rfl := Option.some.inj hall
            exact ⟨heq, hin⟩
          · left
            have hout : a ∉ s.fifo := by
              rw [hfifo, List.mem_cons, not_or]
              exact ⟨heq, hnot⟩
            exact (h.closed a ha hout c hc).resolve_right id
      obtain ⟨s₁, hfold, hwork, hfilling⟩ :=
        hpopped.visitAll hdefined hcurrent fun b hb => ⟨neighbors, hneighbors, hb⟩
      have hwork₁ : s₁.work = m := by
        rw [hwork]
        unfold Fill.work at hm ⊢
        rw [hfifo, List.length_cons] at hm
        dsimp only
        omega
      obtain ⟨s', hfilling', hnil, hfill⟩ := ih hfilling hwork₁
      refine ⟨s', hfilling', hnil, ?_⟩
      intro fuel hfuel
      obtain ⟨fuel, rfl⟩ := Nat.exists_eq_succ_of_ne_zero (Nat.ne_zero_of_lt hfuel)
      unfold fill
      rw [hfifo]
      dsimp only
      rw [hneighbors, Option.bind_eq_bind, Option.bind_some, hfold]
      exact hfill fuel (by omega)

end Visit

/-- A component that is complete is what the seed reaches. -/
theorem Filling.mem_iff {s : Fill} (h : Filling adj admits free seed (fun _ _ => False) s)
    (hnil : s.fifo = []) (n : ℕ) :
    n ∈ s.component ↔ Relation.ReflTransGen (Edge adj admits free) seed n := by
  constructor
  · exact h.reach n
  · intro hreach
    induction hreach with
    | refl => exact List.mem_of_head? h.head
    | tail _ hedge ih =>
      refine (h.closed _ ih ?_ _ hedge).resolve_right id
      rw [hnil]
      exact List.not_mem_nil

end FloodFill
