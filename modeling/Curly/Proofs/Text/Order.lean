import Curly.Text.Basic

namespace Curly

namespace Text

def utf8 (s : Text) : List UInt8 := s.flatMap String.utf8EncodeChar

theorem div_lt_or_mod_lt {m n : Nat} (k : Nat) (h : m < n) :
    m / k < n / k ∨ m / k = n / k ∧ m % k < n % k := by
  obtain hlt | heq := Nat.lt_or_eq_of_le (Nat.div_le_div_right (c := k) (Nat.le_of_lt h))
  · exact .inl hlt
  · refine .inr ⟨heq, ?_⟩
    have hm := Nat.div_add_mod m k
    have hn := Nat.div_add_mod n k
    rw [heq] at hm
    omega

/-- The bytes of a smaller character come first, whatever follows them. -/
theorem utf8EncodeChar_append_lt {c d : Char} (h : c < d) (u v : List UInt8) :
    String.utf8EncodeChar c ++ u < String.utf8EncodeChar d ++ v := by
  have hlt : c.val.toNat < d.val.toNat := h
  have hd : d.val.toNat < 0x110000 := by
    have hvalid : d.val.toNat.isValidChar := d.valid
    unfold Nat.isValidChar at hvalid
    omega
  rw [String.utf8EncodeChar, String.utf8EncodeChar]
  generalize c.val.toNat = m at hlt
  generalize d.val.toNat = n at hlt hd
  -- The lead byte decides between lengths, and the digits to the base 64 within one length.
  have hone := div_lt_or_mod_lt 64 hlt
  have htwo : m / 64 < n / 64 → _ := div_lt_or_mod_lt 64
  have hthree : m / 64 / 64 < n / 64 / 64 → _ := div_lt_or_mod_lt 64
  rw [Nat.div_div_eq_div_mul, Nat.div_div_eq_div_mul] at htwo hthree
  rw [Nat.div_div_eq_div_mul, Nat.div_div_eq_div_mul] at hthree
  have hm : m / 262144 % 8 = m / 262144 := Nat.mod_eq_of_lt (by omega)
  have hn : n / 262144 % 8 = n / 262144 := Nat.mod_eq_of_lt (by omega)
  have hbyte {k : Nat} (hk : k < 256) : (UInt8.ofNat k).toNat = k := by
    rw [UInt8.toNat_ofNat', Nat.mod_eq_of_lt hk]
  repeat' split
  all_goals
    simp only [List.cons_append, List.nil_append, List.cons_lt_cons_iff, UInt8.lt_iff_toNat_lt,
      ← UInt8.toNat_inj]
    simp (disch := omega) only [hbyte, hm, hn]
    omega

theorem utf8_lt {s t : Text} (h : s < t) : s.utf8 < t.utf8 := by
  induction h with
  | @nil d t =>
    obtain ⟨b, bs, hb⟩ := List.exists_cons_of_ne_nil (@String.utf8EncodeChar_ne_nil d)
    rw [utf8, utf8, List.flatMap_cons, hb]
    exact .nil
  | rel h => exact utf8EncodeChar_append_lt h _ _
  | cons _ ih => exact List.append_left_lt ih

end Text

end Curly
