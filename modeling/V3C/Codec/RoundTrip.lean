import V3C.Codec.Reader

/-! Agreement of a serializer with a parser, and the rules that compose it along their
common control structure. -/
namespace Codec

variable {α β γ : Type}

/-- `w` is defined at every phase, and `r` reads `x` back from its bits, whatever follows
them, stopping where `w` stopped. -/
def RoundTrip (w : Writer Unit) (r : Reader α) (x : α) : Prop :=
  ∀ p, ∃ bs, w p = some ((), bs) ∧
    ∀ rest, r ⟨p, bs ++ rest⟩ = some (x, ⟨advance p bs.length, rest⟩)

namespace RoundTrip

/-- The bits of the serializer are the ones that are read back. -/
theorem read_of_write {w : Writer Unit} {r : Reader α} {x : α} (h : RoundTrip w r x) {p : Phase}
    {bs : List Bool} (hw : w p = some ((), bs)) (rest : List Bool) :
    r ⟨p, bs ++ rest⟩ = some (x, ⟨advance p bs.length, rest⟩) := by
  obtain ⟨cs, hw', hr⟩ := h p
  rw [hw] at hw'
  obtain rfl := (Prod.mk.inj (Option.some.inj hw')).2
  exact hr rest

/-- There is only one value that is read back. -/
theorem unique {w : Writer Unit} {r : Reader α} {x y : α} (hx : RoundTrip w r x)
    (hy : RoundTrip w r y) : x = y := by
  obtain ⟨bs, hw, hr⟩ := hx 0
  have hboth := hr []
  rw [hy.read_of_write hw []] at hboth
  exact (Prod.mk.inj (Option.some.inj hboth)).1.symm

/-- What can be read back has been written. -/
theorem total {w : Writer Unit} {r : Reader α} {x : α} (h : RoundTrip w r x) : Writer.Total w := by
  intro p
  obtain ⟨bs, hw, -⟩ := h p
  exact ⟨bs, hw⟩

theorem pure (x : α) : RoundTrip (Pure.pure ()) (Pure.pure x) x := by
  intro p
  exact ⟨[], rfl, fun rest => by simp [Reader.pure_run]⟩

theorem bind {w w' : Writer Unit} {r : Reader α} {s : α → Reader β} {x : α} {y : β}
    (h : RoundTrip w r x) (h' : RoundTrip w' (s x) y) :
    RoundTrip (w >>= fun _ => w') (r >>= s) y := by
  intro p
  obtain ⟨bs, hw, hr⟩ := h p
  obtain ⟨cs, hw', hr'⟩ := h' (advance p bs.length)
  refine ⟨bs ++ cs, Writer.bind_run_eq_some.mpr ⟨(), bs, cs, hw, hw', rfl⟩, fun rest => ?_⟩
  refine Reader.bind_run_eq_some.mpr ⟨x, ⟨advance p bs.length, cs ++ rest⟩, ?_, ?_⟩
  · rw [List.append_assoc, hr]
  · rw [hr', advance_advance, List.length_append]

/-- The last part of a serializer may stand before parsers that find nothing to read. -/
theorem then_pure {w : Writer Unit} {r : Reader α} {s : α → Reader β} {x : α} {y : β}
    (h : RoundTrip w r x) (h' : RoundTrip (Pure.pure ()) (s x) y) : RoundTrip w (r >>= s) y := by
  have hboth := h.bind h'
  rwa [show (w >>= fun _ => Pure.pure ()) = w from bind_pure w] at hboth

/-- A parser that consumes nothing by itself may stand before a serializer's next part. -/
theorem map {w : Writer Unit} {r : Reader α} {x : α} (f : α → β) (h : RoundTrip w r x) :
    RoundTrip w (r >>= fun a => Pure.pure (f a)) (f x) := by
  intro p
  obtain ⟨bs, hw, hr⟩ := h p
  refine ⟨bs, hw, fun rest => ?_⟩
  exact Reader.bind_run_eq_some.mpr ⟨x, _, hr rest, rfl⟩

/-- The last part of a serializer against the last parser before the value is assembled. -/
theorem last {w : Writer Unit} {r : Reader α} {x : α} {f : α → β} {y : β} (h : RoundTrip w r x)
    (hy : f x = y) : RoundTrip w (r >>= fun a => Pure.pure (f a)) y :=
  hy ▸ h.map f

/-- Both sides take a value from the same place. -/
theorem ofOption {o : Option γ} {a : γ} {w : γ → Writer Unit} {r : γ → Reader α} {x : α}
    (ho : o = some a) (h : RoundTrip (w a) (r a) x) :
    RoundTrip (Writer.ofOption o >>= w) (Reader.ofOption o >>= r) x := by
  subst ho
  rwa [Writer.ofOption_some, Reader.ofOption_some, pure_bind, pure_bind]

theorem put_take (bs : List Bool) : RoundTrip (Writer.put bs) (Reader.take bs.length) bs := by
  intro p
  refine ⟨bs, rfl, fun rest => ?_⟩
  simp [Reader.take]

theorem when_whenElse {c : Bool} {w : Writer Unit} {r : Reader α} {x d : α}
    (h : c = true → RoundTrip w r x) (hd : c = false → x = d) :
    RoundTrip (Writer.when c w) (Reader.whenElse c r d) x := by
  cases c with
  | true => exact h rfl
  | false => exact hd rfl ▸ pure d

/-- An element that is coded under a flag, and has a default otherwise. -/
theorem when_default {c : Bool} {w : Writer Unit} {r : Reader α} {x d : α}
    (h : c = true → RoundTrip w r x) :
    RoundTrip (Writer.when c w) (Reader.whenElse c r d) (if c then x else d) := by
  cases c with
  | true => exact h rfl
  | false => exact pure d

theorem ite {c : Prop} [Decidable c] {w w' : Writer Unit} {r r' : Reader α} {x : α}
    (h : c → RoundTrip w r x) (h' : ¬ c → RoundTrip w' r' x) :
    RoundTrip (if c then w else w') (if c then r else r') x := by
  split_ifs with hc
  · exact h hc
  · exact h' hc

theorem forEach_repeatFrom {f : α → Writer Unit} {g : ℕ → Reader β} {y : α → β} (xs : List α)
    (k : ℕ) (h : ∀ i (hi : i < xs.length), RoundTrip (f xs[i]) (g (k + i)) (y xs[i])) :
    RoundTrip (Writer.forEach xs f) (Reader.repeatFrom k xs.length g) (xs.map y) := by
  induction xs generalizing k with
  | nil => exact pure []
  | cons x xs ih =>
    have hx : RoundTrip (f x) (g k) (y x) := h 0 (by simp)
    have hxs : RoundTrip (Writer.forEach xs f) (Reader.repeatFrom (k + 1) xs.length g)
        (xs.map y) := by
      refine ih (k + 1) fun i hi => ?_
      have := h (i + 1) (by simpa using hi)
      simpa [Nat.add_right_comm, Nat.add_assoc] using this
    exact hx.bind (hxs.map (y x :: ·))

/-- A loop with one and the same parser. -/
theorem forEach_repeat {f : α → Writer Unit} {r : Reader β} {y : α → β} (xs : List α) (k : ℕ)
    (h : ∀ x ∈ xs, RoundTrip (f x) r (y x)) :
    RoundTrip (Writer.forEach xs f) (Reader.repeatFrom k xs.length fun _ => r) (xs.map y) :=
  forEach_repeatFrom xs k fun _ hi => h _ (List.getElem_mem hi)

theorem forEach_repeat_self {f : α → Writer Unit} {r : Reader α} (xs : List α) (k : ℕ)
    (h : ∀ x ∈ xs, RoundTrip (f x) r x) :
    RoundTrip (Writer.forEach xs f) (Reader.repeatFrom k xs.length fun _ => r) xs := by
  have hloop := forEach_repeat (y := id) xs k h
  rwa [List.map_id] at hloop

end RoundTrip

end Codec
