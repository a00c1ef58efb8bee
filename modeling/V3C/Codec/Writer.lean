import V3C.Codec.Bits

/-! Serializers. A serializer only appends bits, and what it appends depends on the
position it starts at through that position modulo eight alone. -/
namespace Codec

/-- A bit position modulo eight. -/
abbrev Phase := Fin 8

instance neZero_eight : NeZero 8 := ⟨Nat.succ_ne_zero 7⟩

/-- The phase `n` bits further on. -/
def advance (p : Phase) (n : ℕ) : Phase := ⟨(p.val + n) % 8, Nat.mod_lt _ (by decide)⟩

@[simp] theorem advance_zero (p : Phase) : advance p 0 = p := by
  apply Fin.ext
  simp [advance, Nat.mod_eq_of_lt p.isLt]

@[simp] theorem advance_advance (p : Phase) (m n : ℕ) :
    advance (advance p m) n = advance p (m + n) := by
  apply Fin.ext
  simp only [advance]
  omega

theorem advance_eight_mul (p : Phase) (n : ℕ) : advance p (8 * n) = p := by
  apply Fin.ext
  have := p.isLt
  simp only [advance]
  omega

/-- The result and the appended bits, or `none` where the serializer has no defined
outcome. -/
def Writer (α : Type) : Type := Phase → Option (α × List Bool)

namespace Writer

variable {α β : Type}

/-- Runs `w`, then `k` where `w` stopped. -/
protected def bind (w : Writer α) (k : α → Writer β) : Writer β := fun p =>
  (w p).bind fun (a, bs) => (k a (advance p bs.length)).map fun (b, cs) => (b, bs ++ cs)

instance : Monad Writer where
  pure a := fun _ => some (a, [])
  bind := Writer.bind

theorem pure_run (a : α) (p : Phase) : (pure a : Writer α) p = some (a, []) := rfl

theorem bind_run (w : Writer α) (k : α → Writer β) (p : Phase) :
    (w >>= k) p =
      (w p).bind fun (a, bs) => (k a (advance p bs.length)).map fun (b, cs) => (b, bs ++ cs) := rfl

/-- The bits of a composition are the bits of its parts in order. -/
theorem bind_run_eq_some {w : Writer α} {k : α → Writer β} {p : Phase} {b : β} {ds : List Bool} :
    (w >>= k) p = some (b, ds) ↔
      ∃ a bs cs, w p = some (a, bs) ∧ k a (advance p bs.length) = some (b, cs) ∧ ds = bs ++ cs := by
  rw [bind_run]
  constructor
  · intro h
    obtain ⟨⟨a, bs⟩, hw, hk⟩ := Option.bind_eq_some_iff.mp h
    obtain ⟨⟨b', cs⟩, hrun, heq⟩ := Option.map_eq_some_iff.mp hk
    simp only [Prod.mk.injEq] at heq
    obtain ⟨rfl, rfl⟩ := heq
    exact ⟨a, bs, cs, hw, hrun, rfl⟩
  · rintro ⟨a, bs, cs, hw, hk, rfl⟩
    simp [hw, hk]

private theorem id_map (w : Writer α) : id <$> w = w := by
  funext p
  change (w >>= fun a => pure a) p = w p
  rw [bind_run]
  cases h : w p <;> simp [pure_run]

private theorem pure_bind (a : α) (k : α → Writer β) : pure a >>= k = k a := by
  funext p
  rw [bind_run]
  cases h : k a p <;> simp [pure_run, h]

private theorem bind_assoc {γ : Type} (w : Writer α) (k : α → Writer β) (l : β → Writer γ) :
    w >>= k >>= l = w >>= fun a => k a >>= l := by
  funext p
  simp only [bind_run]
  rcases hw : w p with _ | ⟨a, bs⟩
  · rfl
  rcases hk : k a (advance p bs.length) with _ | ⟨b, cs⟩
  · simp [hk]
  rcases hl : l b (advance p (bs.length + cs.length)) with _ | ⟨c, ds⟩ <;>
    simp [hk, hl]

instance : LawfulMonad Writer := LawfulMonad.mk' Writer id_map pure_bind bind_assoc

/-- No defined outcome. -/
def fail : Writer α := fun _ => none

/-- A value that may have no defined outcome. -/
def ofOption (a : Option α) : Writer α := fun _ => a.map (·, [])

@[simp] theorem ofOption_some (a : α) : ofOption (some a) = pure a := rfl

theorem ofOption_bind_run_eq_some {β : Type} {o : Option α} {k : α → Writer β} {p : Phase} {b : β}
    {bs : List Bool} :
    (ofOption o >>= k) p = some (b, bs) ↔ ∃ a, o = some a ∧ k a p = some (b, bs) := by
  cases o with
  | none => exact iff_of_false nofun fun ⟨_, h, _⟩ => nomatch h
  | some a =>
    rw [ofOption_some, pure_bind]
    exact ⟨fun h => ⟨a, rfl, h⟩, fun ⟨_, ha, h⟩ => Option.some.inj ha ▸ h⟩

/-- Appends the given bits. -/
def put (bs : List Bool) : Writer Unit := fun _ => some ((), bs)

/-- Appends bits that the phase decides. -/
def putAt (f : Phase → List Bool) : Writer Unit := fun p => some ((), f p)

/-- Runs `w` only under the condition. -/
def when (c : Bool) (w : Writer Unit) : Writer Unit := if c then w else pure ()

/-- Runs `f` on each entry in order. -/
def forEach (xs : List α) (f : α → Writer Unit) : Writer Unit :=
  match xs with
  | [] => pure ()
  | x :: xs => do
    f x
    forEach xs f

@[simp] theorem when_true (w : Writer Unit) : when true w = w := rfl

@[simp] theorem when_false (w : Writer Unit) : when false w = pure () := rfl

@[simp] theorem forEach_nil (f : α → Writer Unit) : forEach [] f = pure () := rfl

@[simp] theorem forEach_cons (x : α) (xs : List α) (f : α → Writer Unit) :
    forEach (x :: xs) f = f x >>= fun _ => forEach xs f := rfl

theorem forEach_congr {f g : α → Writer Unit} {xs : List α} (h : ∀ x ∈ xs, f x = g x) :
    forEach xs f = forEach xs g := by
  induction xs with
  | nil => rfl
  | cons x xs ih =>
    rw [forEach_cons, forEach_cons, h x List.mem_cons_self,
      ih fun y hy => h y (List.mem_cons_of_mem x hy)]

/-- A loop that has an outcome has one at every element. -/
theorem exists_of_forEach {f : α → Writer Unit} {xs : List α} {p : Phase} {bs : List Bool}
    (h : forEach xs f p = some ((), bs)) {x : α} (hx : x ∈ xs) :
    ∃ p' cs, f x p' = some ((), cs) := by
  induction xs generalizing p bs with
  | nil => exact absurd hx List.not_mem_nil
  | cons y ys ih =>
    rw [forEach_cons] at h
    obtain ⟨⟨⟩, cs, ds, hcs, hds, -⟩ := bind_run_eq_some.mp h
    rcases List.mem_cons.mp hx with rfl | hx
    · exact ⟨p, cs, hcs⟩
    · exact ih hds hx

/-- A loop whose body always appends something appends no less than it has iterations. -/
theorem length_le_of_forEach {f : α → Writer Unit} {xs : List α} {p : Phase} {bs : List Bool}
    (hpos : ∀ x ∈ xs, ∀ p bs, f x p = some ((), bs) → 0 < bs.length)
    (h : forEach xs f p = some ((), bs)) : xs.length ≤ bs.length := by
  induction xs generalizing p bs with
  | nil => exact Nat.zero_le _
  | cons x xs ih =>
    obtain ⟨⟨⟩, cs, ds, hcs, hds, rfl⟩ := bind_run_eq_some.mp h
    have hx := hpos x List.mem_cons_self _ _ hcs
    have hxs := ih (fun y hy => hpos y (List.mem_cons_of_mem x hy)) hds
    rw [List.length_cons, List.length_append]
    omega

/-- Whatever `w` appends has `n` bits. -/
def Sized (w : Writer Unit) (n : ℕ) : Prop := ∀ p bs, w p = some ((), bs) → bs.length = n

theorem Sized.put (bs : List Bool) : Sized (put bs) bs.length := by
  intro p cs h
  obtain ⟨-, rfl⟩ := Prod.mk.inj (Option.some.inj h)
  rfl

theorem Sized.pure : Sized (Pure.pure ()) 0 := by
  intro p cs h
  obtain ⟨-, rfl⟩ := Prod.mk.inj (Option.some.inj h)
  rfl

theorem Sized.bind {w w' : Writer Unit} {m n : ℕ} (h : Sized w m) (h' : Sized w' n) :
    Sized (w >>= fun _ => w') (m + n) := by
  intro p ds hrun
  obtain ⟨⟨⟩, bs, cs, hw, hw', rfl⟩ := bind_run_eq_some.mp hrun
  rw [List.length_append, h p bs hw, h' _ cs hw']

namespace Sized

variable {w w' : Writer Unit} {m n : ℕ}

theorem when {c : Bool} (h : Sized w n) : Sized (Writer.when c w) (if c then n else 0) := by
  cases c with
  | true => exact h
  | false => exact pure

theorem ofOption_bind {o : Option α} {k : α → Writer Unit} (h : ∀ a, o = some a → Sized (k a) n) :
    Sized (ofOption o >>= k) n := by
  intro p bs hrun
  obtain ⟨a, ho, hk⟩ := ofOption_bind_run_eq_some.mp hrun
  exact h a ho p bs hk

theorem forEach {f : α → Writer Unit} {size : α → ℕ} {xs : List α}
    (h : ∀ x ∈ xs, Sized (f x) (size x)) : Sized (Writer.forEach xs f) (xs.map size).sum := by
  induction xs with
  | nil => exact pure
  | cons x xs ih =>
    rw [forEach_cons, List.map_cons, List.sum_cons]
    exact (h x List.mem_cons_self).bind (ih fun y hy => h y (List.mem_cons_of_mem x hy))

end Sized

/-- Whatever `w` appends has at most `n` bits. -/
def AtMost (w : Writer Unit) (n : ℕ) : Prop := ∀ p bs, w p = some ((), bs) → bs.length ≤ n

theorem Sized.atMost {w : Writer Unit} {n : ℕ} (h : Sized w n) : AtMost w n :=
  fun p bs hrun => (h p bs hrun).le

namespace AtMost

variable {w w' : Writer Unit} {m n : ℕ}

theorem bind (h : AtMost w m) (h' : AtMost w' n) : AtMost (w >>= fun _ => w') (m + n) := by
  intro p ds hrun
  obtain ⟨⟨⟩, bs, cs, hw, hw', rfl⟩ := bind_run_eq_some.mp hrun
  rw [List.length_append]
  exact Nat.add_le_add (h p bs hw) (h' _ cs hw')

theorem ofOption_bind {o : Option α} {k : α → Writer Unit} (h : ∀ a, o = some a → AtMost (k a) n) :
    AtMost (ofOption o >>= k) n := by
  intro p bs hrun
  cases ho : o with
  | none =>
    rw [ho] at hrun
    cases hrun
  | some a =>
    rw [ho, ofOption_some, pure_bind] at hrun
    exact h a ho p bs hrun

theorem when {c : Bool} (h : AtMost w n) : AtMost (when c w) n := by
  cases c with
  | true => exact h
  | false => exact fun p bs hrun => (Sized.pure p bs hrun).trans_le (Nat.zero_le n)

theorem forEach {f : α → Writer Unit} {xs : List α} (h : ∀ x ∈ xs, AtMost (f x) n) :
    AtMost (forEach xs f) (xs.length * n) := by
  induction xs with
  | nil => exact fun p bs hrun => (Sized.pure p bs hrun).trans_le (Nat.zero_le _)
  | cons x xs ih =>
    have hboth := (h x List.mem_cons_self).bind
      (ih fun y hy => h y (List.mem_cons_of_mem x hy))
    rwa [Nat.add_comm, ← Nat.succ_mul] at hboth

end AtMost

/-- Where `w` stops, a whole number of bytes has been appended since the start of the string. -/
def Aligned (w : Writer Unit) : Prop := ∀ p bs, w p = some ((), bs) → advance p bs.length = 0

theorem Aligned.bind {w : Writer α} {k : α → Writer Unit} (h : ∀ a, Aligned (k a)) :
    Aligned (w >>= k) := by
  intro p ds hrun
  obtain ⟨a, bs, cs, -, hk, rfl⟩ := bind_run_eq_some.mp hrun
  rw [List.length_append, ← advance_advance]
  exact h a _ cs hk

theorem dvd_of_advance_eq_zero {n : ℕ} (h : advance 0 n = 0) : 8 ∣ n := by
  have hval := congrArg Fin.val h
  simp only [advance, Fin.val_zero, Nat.zero_add] at hval
  omega

/-- Whatever `w` appends is `n` bits, a one, and zeros up to a whole byte. -/
def Filled (w : Writer Unit) (n : ℕ) : Prop :=
  ∀ p bs, w p = some ((), bs) → bs.length = n + (8 - (p.val + n) % 8)

theorem Sized.filled {w w' : Writer Unit} {m n : ℕ} (h : Sized w m) (h' : Filled w' n) :
    Filled (w >>= fun _ => w') (m + n) := by
  intro p ds hrun
  obtain ⟨⟨⟩, bs, cs, hw, hw', rfl⟩ := bind_run_eq_some.mp hrun
  have hphase : (advance p bs.length).val = (p.val + m) % 8 := by rw [h p bs hw]; rfl
  rw [List.length_append, h p bs hw, h' _ cs hw', hphase]
  omega

/-- `w` has an outcome wherever it starts. -/
def Total (w : Writer Unit) : Prop := ∀ p, ∃ bs, w p = some ((), bs)

theorem Total.bind {w w' : Writer Unit} (h : Total w) (h' : Total w') :
    Total (w >>= fun _ => w') := by
  intro p
  obtain ⟨bs, hw⟩ := h p
  obtain ⟨cs, hw'⟩ := h' (advance p bs.length)
  exact ⟨bs ++ cs, bind_run_eq_some.mpr ⟨(), bs, cs, hw, hw', rfl⟩⟩

end Writer

end Codec
