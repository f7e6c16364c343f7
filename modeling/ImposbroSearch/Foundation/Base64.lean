import ImposbroSearch.Foundation.Numerals

/-!
# Base64

Three bytes are four characters of six bits each. Of fewer bytes at the end the missing
characters are padding, which the strict decoder takes nowhere else.
-/

namespace ImposbroSearch.Foundation

/-- The character of six bits. -/
def base64Char (n : ℕ) : ℕ :=
  if n < 26 then n + 65
  else if n < 52 then n + 71
  else if n < 62 then n - 4
  else if n = 62 then 43
  else 47

/-- The six bits of a character. -/
def base64Value (c : ℕ) : Option ℕ :=
  if 65 ≤ c ∧ c ≤ 90 then some (c - 65)
  else if 97 ≤ c ∧ c ≤ 122 then some (c - 71)
  else if isDigit c then some (c + 4)
  else if c = 43 then some 62
  else if c = 47 then some 63
  else none

/-- `base64.b64encode` -/
def b64encode : List ℕ → Text
  | [] => []
  | [a] => [base64Char (a / 4), base64Char (a % 4 * 16), 61, 61]
  | [a, b] =>
    [base64Char (a / 4), base64Char (a % 4 * 16 + b / 16), base64Char (b % 16 * 4), 61]
  | a :: b :: c :: bytes =>
    base64Char (a / 4) :: base64Char (a % 4 * 16 + b / 16) ::
      base64Char (b % 16 * 4 + c / 64) :: base64Char (c % 64) :: b64encode bytes

/-- `base64.b64decode`, which takes nothing but base64. -/
def b64decode : Text → Option (List ℕ)
  | [] => some []
  | a :: b :: c :: d :: rest =>
    if d = 61 then
      if rest ≠ [] then none
      else if c = 61 then do
        let a ← base64Value a
        let b ← base64Value b
        some [a * 4 + b / 16]
      else do
        let a ← base64Value a
        let b ← base64Value b
        let c ← base64Value c
        some [a * 4 + b / 16, b % 16 * 16 + c / 4]
    else do
      let a ← base64Value a
      let b ← base64Value b
      let c ← base64Value c
      let d ← base64Value d
      let bytes ← b64decode rest
      some ([a * 4 + b / 16, b % 16 * 16 + c / 4, c % 4 * 64 + d] ++ bytes)
  | _ => none

theorem base64Value_char {n : ℕ} (small : n < 64) : base64Value (base64Char n) = some n := by
  interval_cases n
  all_goals rfl

/-- No six bits are padding. -/
theorem base64Char_ne_pad {n : ℕ} (small : n < 64) : base64Char n ≠ 61 := by
  intro pad
  have value := base64Value_char small
  rw [pad] at value
  cases value

/-- **What is encoded is decoded.** -/
theorem b64decode_encode {bytes : List ℕ} (small : ∀ b ∈ bytes, b < 256) :
    b64decode (b64encode bytes) = some bytes := by
  induction bytes using b64encode.induct with
  | case1 => rfl
  | case2 a =>
      have first := small a (by simp)
      rw [b64encode, b64decode, if_pos rfl, if_neg (not_not.mpr rfl), if_pos rfl,
        base64Value_char (by omega), base64Value_char (by omega)]
      simp only [Option.bind_eq_bind, Option.bind_some, Option.some.injEq, List.cons.injEq,
        and_true]
      omega
  | case3 a b =>
      have first := small a (by simp)
      have second := small b (by simp)
      rw [b64encode, b64decode, if_pos rfl, if_neg (not_not.mpr rfl),
        if_neg (base64Char_ne_pad (by omega : b % 16 * 4 < 64)), base64Value_char (by omega),
        base64Value_char (by omega), base64Value_char (by omega)]
      simp only [Option.bind_eq_bind, Option.bind_some, Option.some.injEq, List.cons.injEq,
        and_true]
      omega
  | case4 a b c bytes ih =>
      have first := small a (by simp)
      have second := small b (by simp)
      have third := small c (by simp)
      have others := ih fun other member => small other (by simp [member])
      rw [b64encode, b64decode, if_neg (base64Char_ne_pad (by omega : c % 64 < 64)),
        base64Value_char (by omega), base64Value_char (by omega), base64Value_char (by omega),
        base64Value_char (by omega), others]
      simp only [Option.bind_eq_bind, Option.bind_some, Option.some.injEq, List.cons_append,
        List.nil_append, List.cons.injEq, and_true]
      omega

/-- An encoded text is in ASCII. -/
theorem mem_b64encode {bytes : List ℕ} (small : ∀ b ∈ bytes, b < 256) {c : ℕ}
    (member : c ∈ b64encode bytes) : c < 128 := by
  have ascii : ∀ n < 64, base64Char n < 128 := by decide
  induction bytes using b64encode.induct with
  | case1 => cases member
  | case2 a =>
      have first := small a (by simp)
      simp only [b64encode, List.mem_cons, List.not_mem_nil, or_false] at member
      rcases member with rfl | rfl | rfl | rfl
      · exact ascii _ (by omega)
      · exact ascii _ (by omega)
      · norm_num
      · norm_num
  | case3 a b =>
      have first := small a (by simp)
      have second := small b (by simp)
      simp only [b64encode, List.mem_cons, List.not_mem_nil, or_false] at member
      rcases member with rfl | rfl | rfl | rfl
      · exact ascii _ (by omega)
      · exact ascii _ (by omega)
      · exact ascii _ (by omega)
      · norm_num
  | case4 a b c' bytes ih =>
      have first := small a (by simp)
      have second := small b (by simp)
      have third := small c' (by simp)
      simp only [b64encode, List.mem_cons] at member
      rcases member with rfl | rfl | rfl | rfl | behind
      · exact ascii _ (by omega)
      · exact ascii _ (by omega)
      · exact ascii _ (by omega)
      · exact ascii _ (by omega)
      · exact ih (fun other within => small other (by simp [within])) behind

end ImposbroSearch.Foundation
