import V3C.Bitstream.Fields
import V3C.Codec.Consumption

/-! The bits that syntax elements take. -/
namespace V3C
open Codec

theorem read_takes {n v : ℕ} {c c' : Cursor} (h : read n c = some (v, c')) : c.Takes c' n := by
  unfold read at h
  split_ifs at h
  · obtain ⟨bs, c₁, htake, hpure⟩ := Reader.bind_run_eq_some.mp h
    obtain ⟨-, rfl⟩ := Prod.mk.inj (Option.some.inj hpure)
    exact Reader.take_takes htake
  · exact absurd h (by simp [Reader.fail])

theorem readFlag_takes {b : Bool} {c c' : Cursor} (h : readFlag c = some (b, c')) :
    c.Takes c' 1 := by
  obtain ⟨code, c₁, hread, hpure⟩ := Reader.bind_run_eq_some.mp h
  obtain ⟨-, rfl⟩ := Prod.mk.inj (Option.some.inj hpure)
  exact read_takes hread

theorem zeros_takes {n : ℕ} {c c' : Cursor} (h : Reader.zeros c = some (n, c')) :
    c.Takes c' (n + 1) := by
  obtain ⟨⟨m, rest⟩, hzeros, hpair⟩ := Option.map_eq_some_iff.mp h
  obtain ⟨rfl, rfl⟩ := Prod.mk.inj hpair
  unfold Cursor.Takes
  rw [Reader.zerosIn_eq_some hzeros, List.length_append, List.length_replicate, List.length_cons]
  change rest.length + (m + 1) ≤ _
  omega

/-- The number of leading zeros of an unsigned code is the logarithm of its value. -/
theorem readUvlc_takes {v : ℕ} {c c' : Cursor} (h : readUvlc c = some (v, c')) :
    v + 1 < 2 ^ 32 ∧ c.Takes c' (2 * Nat.log2 (v + 1) + 1) := by
  obtain ⟨n, c₁, hzeros, h⟩ := Reader.bind_run_eq_some.mp h
  split_ifs at h with hn
  · obtain ⟨value, c₂, hread, h⟩ := Reader.bind_run_eq_some.mp h
    obtain ⟨rfl, rfl⟩ := Prod.mk.inj (Option.some.inj h)
    have htakes := (zeros_takes hzeros).trans (read_takes hread)
    have hvalue : value < 2 ^ n := by
      unfold read at hread
      rw [if_pos hn.le] at hread
      obtain ⟨bs, c₃, htake, hpure⟩ := Reader.bind_run_eq_some.mp hread
      obtain ⟨rfl, -⟩ := Prod.mk.inj (Option.some.inj hpure)
      unfold Reader.take at htake
      split_ifs at htake with hlen
      obtain ⟨rfl, -⟩ := Prod.mk.inj (Option.some.inj htake)
      have hlt := natOfBits_lt (c₁.rest.take n)
      rwa [List.length_take_of_le hlen] at hlt
    have hpos := Nat.two_pow_pos n
    have hpow : 2 ^ n ≤ 2 ^ 31 := Nat.pow_le_pow_right (by omega) (by omega)
    have hmod : (value + 2 ^ n - 1) % 2 ^ 32 = value + 2 ^ n - 1 := Nat.mod_eq_of_lt (by omega)
    rw [hmod, show value + 2 ^ n - 1 + 1 = value + 2 ^ n by omega]
    have hlog : Nat.log2 (value + 2 ^ n) = n := by
      rw [Nat.log2_eq_iff (by omega), pow_succ]
      omega
    rw [hlog]
    exact ⟨by omega, htakes.mono (by omega)⟩
  · exact absurd h (by simp [Reader.fail])

theorem length_writeUvlc {w : ℕ} (hw : w + 1 < 2 ^ 32) {p : Phase} {bs : List Bool}
    (h : writeUvlc w p = some ((), bs)) : bs.length = 2 * Nat.log2 (w + 1) + 1 := by
  rw [writeUvlc_eq hw] at h
  obtain ⟨-, rfl⟩ := Prod.mk.inj (Option.some.inj h)
  rw [List.length_append, List.length_replicate, length_bitsOfNat]
  omega

end V3C
