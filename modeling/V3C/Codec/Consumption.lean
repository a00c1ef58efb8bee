import V3C.Codec.Reader

/-! How many bits a parser takes. -/
namespace Codec

variable {α β : Type}

/-- The number of bits taken on the way from one cursor to another. -/
def Cursor.Takes (c c' : Cursor) (n : ℕ) : Prop := c'.rest.length + n ≤ c.rest.length

namespace Cursor.Takes

theorem refl (c : Cursor) : c.Takes c 0 := le_refl _

theorem trans {c c₁ c₂ : Cursor} {m n : ℕ} (h : c.Takes c₁ m) (h' : c₁.Takes c₂ n) :
    c.Takes c₂ (m + n) := by
  unfold Cursor.Takes at *
  omega

theorem mono {c c' : Cursor} {m n : ℕ} (h : c.Takes c' n) (hmn : m ≤ n) : c.Takes c' m := by
  unfold Cursor.Takes at *
  omega

end Cursor.Takes

namespace Reader

/-- A parser never gives bits back. -/
def Forward (r : Reader α) : Prop := ∀ c a c', r c = some (a, c') → c.Takes c' 0

theorem Forward.pure (a : α) : Forward (Pure.pure a) := by
  intro c b c' h
  obtain ⟨-, rfl⟩ := Prod.mk.inj (Option.some.inj h)
  exact Cursor.Takes.refl c

theorem Forward.bind {r : Reader α} {k : α → Reader β} (hr : Forward r)
    (hk : ∀ a, Forward (k a)) : Forward (r >>= k) := by
  intro c b c' h
  obtain ⟨a, c₁, h₁, h₂⟩ := bind_run_eq_some.mp h
  exact (hr c a c₁ h₁).trans (hk a c₁ b c' h₂)

theorem Forward.whenElse {b : Bool} {r : Reader α} (d : α) (hr : Forward r) :
    Forward (Reader.whenElse b r d) := by
  cases b with
  | true => exact hr
  | false => exact Forward.pure d

theorem Forward.repeatFrom {f : ℕ → Reader α} (hf : ∀ i, Forward (f i)) (i n : ℕ) :
    Forward (Reader.repeatFrom i n f) := by
  induction n generalizing i with
  | zero => exact Forward.pure []
  | succ n ih => exact (hf i).bind fun a => (ih (i + 1)).bind fun as => Forward.pure _

theorem take_takes {n : ℕ} {c c' : Cursor} {bs : List Bool} (h : take n c = some (bs, c')) :
    c.Takes c' n := by
  unfold take at h
  split_ifs at h with hn
  obtain ⟨-, rfl⟩ := Prod.mk.inj (Option.some.inj h)
  unfold Cursor.Takes
  rw [List.length_drop]
  omega

end Reader

end Codec
