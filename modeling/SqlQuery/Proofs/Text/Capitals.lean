/-!
Capital and small letters of ASCII. Other characters have one form only.
-/

namespace SqlQuery

/-- A capital letter of ASCII and its small form, which comes 32 places later. -/
def IsCapitalOf (capital small : Char) : Prop :=
  65 ≤ capital.toNat ∧ capital.toNat ≤ 90 ∧ small.toNat = capital.toNat + 32

theorem toNat_toLower (c : Char) :
    c.toLower.toNat = if 65 ≤ c.toNat ∧ c.toNat ≤ 90 then c.toNat + 32 else c.toNat := by
  by_cases capital : c.val ≥ 'A'.val ∧ c.val ≤ 'Z'.val
  · have small : c.toLower = ⟨c.val + 32, _⟩ := dif_pos capital
    have bounds : 65 ≤ c.val.toNat ∧ c.val.toNat ≤ 90 := capital
    have sum : (c.val + 32).toNat = (c.val.toNat + 32) % 4294967296 := UInt32.toNat_add c.val 32
    rw [small]
    change (c.val + 32).toNat = if 65 ≤ c.val.toNat ∧ c.val.toNat ≤ 90 then c.val.toNat + 32 else _
    rw [if_pos bounds, sum]
    omega
  · have same : c.toLower = c := dif_neg capital
    have bounds : ¬ (65 ≤ c.toNat ∧ c.toNat ≤ 90) := capital
    rw [same, if_neg bounds]

theorem toNat_toUpper (c : Char) :
    c.toUpper.toNat = if 97 ≤ c.toNat ∧ c.toNat ≤ 122 then c.toNat - 32 else c.toNat := by
  by_cases small : c.val ≥ 'a'.val ∧ c.val ≤ 'z'.val
  · have capital : c.toUpper = ⟨c.val + ('A'.val - 'a'.val), _⟩ := dif_pos small
    have bounds : 97 ≤ c.val.toNat ∧ c.val.toNat ≤ 122 := small
    have sum : (c.val + ('A'.val - 'a'.val)).toNat = (c.val.toNat + 4294967264) % 4294967296 :=
      UInt32.toNat_add c.val _
    rw [capital]
    change (c.val + ('A'.val - 'a'.val)).toNat =
      if 97 ≤ c.val.toNat ∧ c.val.toNat ≤ 122 then c.val.toNat - 32 else _
    rw [if_pos bounds, sum]
    omega
  · have same : c.toUpper = c := dif_neg small
    have bounds : ¬ (97 ≤ c.toNat ∧ c.toNat ≤ 122) := small
    rw [same, if_neg bounds]

theorem toLower_eq_iff {c d : Char} :
    c.toLower = d.toLower ↔ c = d ∨ IsCapitalOf c d ∨ IsCapitalOf d c := by
  rw [← Char.toNat_inj, ← Char.toNat_inj, toNat_toLower, toNat_toLower, IsCapitalOf, IsCapitalOf]
  split
  · split
    · omega
    · omega
  · split
    · omega
    · omega

theorem toUpper_eq_iff {c letter : Char} (upper : letter.isUpper = true) :
    c.toUpper = letter ↔ c = letter ∨ c = letter.toLower := by
  have bounds : 65 ≤ letter.toNat ∧ letter.toNat ≤ 90 := of_decide_eq_true upper
  rw [← Char.toNat_inj, ← Char.toNat_inj, ← Char.toNat_inj, toNat_toUpper, toNat_toLower,
    if_pos bounds]
  split
  · omega
  · omega

/-- What is no letter is the capital form of itself only. -/
theorem eq_of_toUpper_eq {c sign : Char} (early : sign.toNat < 65) (same : c.toUpper = sign) :
    c = sign := by
  rw [← Char.toNat_inj, toNat_toUpper] at same
  rw [← Char.toNat_inj]
  split at same
  · omega
  · omega

end SqlQuery
