import Mathlib.Logic.Function.Iterate
import V3C.Store.Cells

/-! Loops that store a value at a place of a list for each of their keys. -/
namespace Rows
open Cells

variable {κ α : Type}

def store (place : κ → ℕ) (value : κ → Option α) (keys : List κ) (cells : List α) :
    Option (List α) :=
  keys.foldlM (fun cells k => (value k).bind fun a => setAt cells (place k) a) cells

/-- The values are at their places, and the other places are as before. -/
structure Stored (place : κ → ℕ) (value : κ → Option α) (keys : List κ)
    (cells cells' : List α) : Prop where
  length_eq : cells'.length = cells.length
  at_place : ∀ k ∈ keys, cells'[place k]? = value k
  elsewhere : ∀ i, (∀ k ∈ keys, place k ≠ i) → cells'[i]? = cells[i]?
  exists_value : ∀ k ∈ keys, ∃ a, value k = some a

variable {place : κ → ℕ} {value : κ → Option α} {keys : List κ} {cells cells' : List α}

theorem store_cons (k : κ) (keys : List κ) (cells : List α) :
    store place value (k :: keys) cells =
      (value k).bind fun a => (setAt cells (place k) a).bind (store place value keys) := by
  unfold store
  rw [List.foldlM_cons]
  cases value k <;> rfl

theorem store_congr {value' : κ → Option α} (h : ∀ k ∈ keys, value k = value' k)
    (cells : List α) : store place value keys cells = store place value' keys cells := by
  induction keys generalizing cells with
  | nil => rfl
  | cons k keys ih =>
    rw [store_cons, store_cons, h k List.mem_cons_self]
    have hrest : store place value keys = store place value' keys :=
      funext fun cells => ih (fun k hk => h k (List.mem_cons_of_mem _ hk)) cells
    rw [hrest]

/-- A loop stores its values where they agree at each place. -/
theorem stored_of_store (h : store place value keys cells = some cells')
    (hagree : ∀ k ∈ keys, ∀ k' ∈ keys, place k = place k' → value k = value k') :
    Stored place value keys cells cells' := by
  induction keys generalizing cells with
  | nil =>
    obtain rfl : cells = cells' := Option.some.inj h
    exact ⟨rfl, fun k hk => absurd hk List.not_mem_nil, fun _ _ => rfl,
      fun k hk => absurd hk List.not_mem_nil⟩
  | cons k keys ih =>
    rw [store_cons] at h
    obtain ⟨a, ha, h⟩ := Option.bind_eq_some_iff.mp h
    obtain ⟨next, hnext, h⟩ := Option.bind_eq_some_iff.mp h
    have hrest := ih h fun k hk k' hk' =>
      hagree k (List.mem_cons_of_mem _ hk) k' (List.mem_cons_of_mem _ hk')
    refine ⟨hrest.length_eq.trans (length_setAt hnext), ?_, ?_, ?_⟩
    · intro k' hk'
      rcases List.mem_cons.mp hk' with rfl | hmem
      · by_cases hlater : ∃ k ∈ keys, place k = place k'
        · obtain ⟨k, hk, heq⟩ := hlater
          rw [← heq, hrest.at_place k hk]
          exact hagree k (List.mem_cons_of_mem _ hk) k' List.mem_cons_self heq
        · push Not at hlater
          rw [hrest.elsewhere (place k') hlater, lawful_setAt.get_put_self hnext, ha]
      · exact hrest.at_place k' hmem
    · intro i hi
      have hne : i ≠ place k := (hi k List.mem_cons_self).symm
      rw [hrest.elsewhere i fun k' hk' => hi k' (List.mem_cons_of_mem _ hk')]
      exact lawful_setAt.get_put_ne hnext hne
    · intro k' hk'
      rcases List.mem_cons.mp hk' with rfl | hmem
      · exact ⟨a, ha⟩
      · exact hrest.exists_value k' hmem

/-- A loop whose places are in the list returns. -/
theorem exists_store (hvalue : ∀ k ∈ keys, ∃ a, value k = some a)
    (hplace : ∀ k ∈ keys, place k < cells.length) :
    ∃ cells', store place value keys cells = some cells' := by
  induction keys generalizing cells with
  | nil => exact ⟨cells, rfl⟩
  | cons k keys ih =>
    obtain ⟨a, ha⟩ := hvalue k List.mem_cons_self
    have hlt := hplace k List.mem_cons_self
    have hset : setAt cells (place k) a = some (cells.set (place k) a) := if_pos hlt
    obtain ⟨cells', hcells'⟩ := @ih (cells.set (place k) a)
      (fun k hk => hvalue k (List.mem_cons_of_mem _ hk)) fun k hk => by
        rw [List.length_set]
        exact hplace k (List.mem_cons_of_mem _ hk)
    refine ⟨cells', ?_⟩
    rw [store_cons, ha, Option.bind_some, hset]
    exact hcells'

/-- A loop that covers a list replaces it. -/
theorem Stored.eq_of_covers {cells'' : List α}
    (h : Stored place value keys cells cells') (hlength : cells''.length = cells.length)
    (hcovers : ∀ i < cells.length, ∃ k ∈ keys, place k = i)
    (hvalue : ∀ k ∈ keys, value k = cells''[place k]?) : cells' = cells'' := by
  apply List.ext_getElem?
  intro i
  by_cases hi : i < cells.length
  · obtain ⟨k, hk, rfl⟩ := hcovers i hi
    rw [h.at_place k hk, hvalue k hk]
  · have hlen := h.length_eq
    rw [List.getElem?_eq_none (by omega), List.getElem?_eq_none (by omega)]

/-- A loop that replaces the value at the place of each of its keys. -/
def modify (place : κ → ℕ) (f : α → α) (keys : List κ) (cells : List α) : Option (List α) :=
  keys.foldlM (fun cells k => (cells[place k]?).bind fun a => setAt cells (place k) (f a)) cells

/-- A value is replaced once for each key of its place. -/
theorem exists_modify {f : α → α} (hplace : ∀ k ∈ keys, place k < cells.length) :
    ∃ cells', modify place f keys cells = some cells' ∧ cells'.length = cells.length ∧
      ∀ i, cells'[i]? = (cells[i]?).map f^[keys.countP fun k => place k = i] := by
  induction keys generalizing cells with
  | nil => exact ⟨cells, rfl, rfl, fun i => (Option.map_id_apply ..).symm⟩
  | cons k keys ih =>
    have hlt := hplace k List.mem_cons_self
    obtain ⟨a, ha⟩ : ∃ a, cells[place k]? = some a := ⟨_, List.getElem?_eq_getElem hlt⟩
    obtain ⟨cells', hrun, hlength, hvalues⟩ := @ih (cells.set (place k) (f a))
      fun k hk => by
        rw [List.length_set]
        exact hplace k (List.mem_cons_of_mem _ hk)
    refine ⟨cells', ?_, hlength.trans List.length_set, ?_⟩
    · have hset : setAt cells (place k) (f a) = some (cells.set (place k) (f a)) := if_pos hlt
      unfold modify
      rw [List.foldlM_cons, ha, Option.bind_some, hset]
      exact hrun
    · intro i
      rw [hvalues i, List.countP_cons]
      by_cases hi : place k = i
      · subst hi
        rw [List.getElem?_set_self hlt, ha, if_pos (decide_eq_true rfl)]
        rfl
      · rw [List.getElem?_set_ne hi, if_neg (by simpa using hi), Nat.add_zero]

end Rows
