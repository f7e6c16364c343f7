import ImposbroSearch.Foundation.Numerals

/-!
# UTF-8

Bytes of texts. The decoder goes over the bytes one by one and remembers what it expects
of the next one; a byte that is not expected ends a faulty sequence and begins anew. So a
faulty sequence is as long as it can be, and it is reported once.
-/

namespace ImposbroSearch.Foundation

/-- A code point that UTF-8 encodes. -/
def IsScalar (c : ℕ) : Prop := c < 0xd800 ∨ 0xdfff < c ∧ c < 0x110000

instance (c : ℕ) : Decidable (IsScalar c) := inferInstanceAs (Decidable (_ ∨ _))

def utf8Char (c : ℕ) : List ℕ :=
  if c < 0x80 then [c]
  else if c < 0x800 then [0xc0 + c / 64, 0x80 + c % 64]
  else if c < 0x10000 then [0xe0 + c / 4096, 0x80 + c / 64 % 64, 0x80 + c % 64]
  else [0xf0 + c / 262144, 0x80 + c / 4096 % 64, 0x80 + c / 64 % 64, 0x80 + c % 64]

/-- `str.encode("utf-8")`, which refuses surrogates. -/
def utf8Encode (text : Text) : Option (List ℕ) :=
  if ∀ c ∈ text, IsScalar c then some (text.flatMap utf8Char) else none

/-- What the decoder expects: nothing begun, or so many bytes more, the next of them
between two bounds. -/
inductive Utf8State where
  | start
  | pending (missing value lower upper : ℕ)
  deriving DecidableEq, Repr

/-- The first byte of a sequence. A fault is reported as none. -/
def utf8Lead (b : ℕ) : List (Option ℕ) × Utf8State :=
  if b < 0x80 then ([some b], .start)
  else if b < 0xc2 then ([none], .start)
  else if b < 0xe0 then ([], .pending 1 (b - 0xc0) 0x80 0xbf)
  else if b = 0xe0 then ([], .pending 2 0 0xa0 0xbf)
  else if b = 0xed then ([], .pending 2 13 0x80 0x9f)
  else if b < 0xf0 then ([], .pending 2 (b - 0xe0) 0x80 0xbf)
  else if b = 0xf0 then ([], .pending 3 0 0x90 0xbf)
  else if b < 0xf4 then ([], .pending 3 (b - 0xf0) 0x80 0xbf)
  else if b = 0xf4 then ([], .pending 3 4 0x80 0x8f)
  else ([none], .start)

def utf8Step : Utf8State → ℕ → List (Option ℕ) × Utf8State
  | .start, b => utf8Lead b
  | .pending missing value lower upper, b =>
    if lower ≤ b ∧ b ≤ upper then
      if missing ≤ 1 then ([some (value * 64 + (b - 0x80))], .start)
      else ([], .pending (missing - 1) (value * 64 + (b - 0x80)) 0x80 0xbf)
    else (none :: (utf8Lead b).1, (utf8Lead b).2)

def utf8Scan : Utf8State → List ℕ → List (Option ℕ)
  | .start, [] => []
  | .pending _ _ _ _, [] => [none]
  | state, b :: bytes => (utf8Step state b).1 ++ utf8Scan (utf8Step state b).2 bytes

/-- `bytes.decode("utf-8")` -/
def utf8Decode (bytes : List ℕ) : Option Text :=
  let scanned := utf8Scan .start bytes
  if scanned.all Option.isSome then some (scanned.filterMap id) else none

/-- `bytes.decode("utf-8", errors="replace")` -/
def utf8DecodeReplace (bytes : List ℕ) : Text :=
  (utf8Scan .start bytes).map fun c => c.getD 0xfffd

/-! ## What is encoded is decoded -/

theorem utf8Scan_start_cons (b : ℕ) (bytes : List ℕ) : utf8Scan .start (b :: bytes) =
    (utf8Lead b).1 ++ utf8Scan (utf8Lead b).2 bytes := by
  rw [utf8Scan]
  rfl

/-- A byte that is expected. -/
theorem utf8Scan_pending_cons {missing value lower upper b : ℕ} (expected : lower ≤ b ∧ b ≤ upper)
    (bytes : List ℕ) : utf8Scan (.pending missing value lower upper) (b :: bytes) =
      if missing ≤ 1 then some (value * 64 + (b - 0x80)) :: utf8Scan .start bytes
      else utf8Scan (.pending (missing - 1) (value * 64 + (b - 0x80)) 0x80 0xbf) bytes := by
  rw [utf8Scan, utf8Step, if_pos expected]
  split_ifs
  · rfl
  · rfl

theorem utf8Scan_ascii {c : ℕ} (small : c < 0x80) (bytes : List ℕ) :
    utf8Scan .start (c :: bytes) = some c :: utf8Scan .start bytes := by
  rw [utf8Scan_start_cons]
  unfold utf8Lead
  rw [if_pos small]
  rfl

/-- The first byte of three excludes what two could say, and surrogates. -/
theorem utf8Lead_three {q : ℕ} (small : q < 16) : ∃ lower upper,
    utf8Lead (0xe0 + q) = ([], .pending 2 q lower upper) ∧
      (lower = if q = 0 then 0xa0 else 0x80) ∧ upper = if q = 13 then 0x9f else 0xbf := by
  interval_cases q
  all_goals exact ⟨_, _, rfl, rfl, rfl⟩

/-- The first byte of four excludes what three could say, and what is no code point. -/
theorem utf8Lead_four {q : ℕ} (small : q < 5) : ∃ lower upper,
    utf8Lead (0xf0 + q) = ([], .pending 3 q lower upper) ∧
      (lower = if q = 0 then 0x90 else 0x80) ∧ upper = if q = 4 then 0x8f else 0xbf := by
  interval_cases q
  all_goals exact ⟨_, _, rfl, rfl, rfl⟩

/-- **One character** is decoded from its bytes. -/
theorem utf8Scan_char {c : ℕ} (scalar : IsScalar c) (bytes : List ℕ) :
    utf8Scan .start (utf8Char c ++ bytes) = some c :: utf8Scan .start bytes := by
  unfold IsScalar at scalar
  unfold utf8Char
  split_ifs with one two three
  · exact utf8Scan_ascii one bytes
  · have lead : utf8Lead (0xc0 + c / 64) = ([], .pending 1 (c / 64) 0x80 0xbf) := by
      unfold utf8Lead
      rw [if_neg (by omega), if_neg (by omega), if_pos (by omega), Nat.add_sub_cancel_left]
    rw [List.cons_append, List.cons_append, utf8Scan_start_cons, lead,
      utf8Scan_pending_cons (by omega), if_pos le_rfl]
    simp only [List.nil_append, List.cons.injEq, Option.some.injEq, and_true]
    omega
  · obtain ⟨lower, upper, lead, low, high⟩ := utf8Lead_three (q := c / 4096) (by omega)
    have first : lower ≤ 0x80 + c / 64 % 64 ∧ 0x80 + c / 64 % 64 ≤ upper := by
      rw [low, high]
      split_ifs
      all_goals omega
    rw [List.cons_append, List.cons_append, List.cons_append, utf8Scan_start_cons, lead,
      utf8Scan_pending_cons first, if_neg (by norm_num), utf8Scan_pending_cons (by omega),
      if_pos le_rfl]
    simp only [List.nil_append, List.cons.injEq, Option.some.injEq, and_true]
    omega
  · obtain ⟨lower, upper, lead, low, high⟩ := utf8Lead_four (q := c / 262144) (by omega)
    have first : lower ≤ 0x80 + c / 4096 % 64 ∧ 0x80 + c / 4096 % 64 ≤ upper := by
      rw [low, high]
      split_ifs
      all_goals omega
    rw [List.cons_append, List.cons_append, List.cons_append, List.cons_append,
      utf8Scan_start_cons, lead, utf8Scan_pending_cons first, if_neg (by norm_num),
      utf8Scan_pending_cons (by omega), if_neg (by norm_num), utf8Scan_pending_cons (by omega),
      if_pos le_rfl]
    simp only [List.nil_append, List.cons.injEq, Option.some.injEq, and_true]
    omega

theorem utf8Scan_text {text : Text} (scalars : ∀ c ∈ text, IsScalar c) :
    utf8Scan .start (text.flatMap utf8Char) = text.map some := by
  induction text with
  | nil => rfl
  | cons c text ih =>
      rw [List.flatMap_cons, utf8Scan_char (scalars c List.mem_cons_self),
        ih fun other member => scalars other (List.mem_cons_of_mem c member)]
      rfl

/-- **The round trip.** -/
theorem utf8Decode_encode {text : Text} {bytes : List ℕ} (encoded : utf8Encode text = some bytes) :
    utf8Decode bytes = some text := by
  unfold utf8Encode at encoded
  split_ifs at encoded with scalars
  obtain rfl := Option.some.inj encoded
  unfold utf8Decode
  rw [utf8Scan_text scalars]
  simp

theorem utf8Encode_injective {first second : Text} {bytes : List ℕ}
    (encoded : utf8Encode first = some bytes) (same : utf8Encode second = some bytes) :
    first = second := by
  have decoded := utf8Decode_encode encoded
  rw [utf8Decode_encode same] at decoded
  exact (Option.some.inj decoded).symm

/-- A text in ASCII is its own bytes. -/
theorem utf8Decode_ascii {text : Text} (ascii : ∀ c ∈ text, c < 0x80) :
    utf8Decode text = some text := by
  have scanned : utf8Scan .start text = text.map some := by
    induction text with
    | nil => rfl
    | cons c text ih =>
        rw [utf8Scan_ascii (ascii c List.mem_cons_self),
          ih fun other member => ascii other (List.mem_cons_of_mem c member)]
        rfl
  unfold utf8Decode
  rw [scanned]
  simp

/-! ## What is decoded is Unicode -/

/-- Whatever completes the sequence makes it a code point that UTF-8 encodes. -/
def CompletesScalar : ℕ → ℕ → ℕ → ℕ → Prop
  | missing + 2, value, lower, upper => ∀ b, lower ≤ b ∧ b ≤ upper →
    CompletesScalar (missing + 1) (value * 64 + (b - 0x80)) 0x80 0xbf
  | _, value, lower, upper => ∀ b, lower ≤ b ∧ b ≤ upper → IsScalar (value * 64 + (b - 0x80))

/-- What the decoder has begun can only end as a code point. -/
def Utf8State.Sound : Utf8State → Prop
  | .start => True
  | .pending missing value lower upper => CompletesScalar missing value lower upper

theorem utf8Lead_sound (b : ℕ) :
    (∀ c, some c ∈ (utf8Lead b).1 → IsScalar c) ∧ (utf8Lead b).2.Sound := by
  unfold utf8Lead
  split_ifs
  all_goals
    refine ⟨fun c member => ?_, ?_⟩
    · simp only [List.mem_singleton, List.not_mem_nil, Option.some.injEq, reduceCtorEq] at member
      try subst member
      try exact Or.inl (by omega)
    · simp only [Utf8State.Sound, CompletesScalar, IsScalar]
      try intros; omega

theorem utf8Step_sound {state : Utf8State} (sound : state.Sound) (b : ℕ) :
    (∀ c, some c ∈ (utf8Step state b).1 → IsScalar c) ∧ (utf8Step state b).2.Sound := by
  cases state with
  | start => exact utf8Lead_sound b
  | pending missing value lower upper =>
      simp only [utf8Step]
      split_ifs with expected last
      · refine ⟨fun c member => ?_, True.intro⟩
        have whole : IsScalar (value * 64 + (b - 0x80)) := by
          obtain rfl | rfl := Nat.le_one_iff_eq_zero_or_eq_one.mp last
          · exact sound b expected
          · exact sound b expected
        rw [Option.some.inj (List.mem_singleton.mp member)]
        exact whole
      · obtain ⟨more, rfl⟩ : ∃ more, missing = more + 2 := ⟨missing - 2, by omega⟩
        exact ⟨fun c member => absurd member List.not_mem_nil, sound b expected⟩
      · refine ⟨fun c member => ?_, (utf8Lead_sound b).2⟩
        rcases List.mem_cons.mp member with fault | inside
        · cases fault
        · exact (utf8Lead_sound b).1 c inside

/-- **What is decoded** is Unicode. -/
theorem utf8Scan_scalar {state : Utf8State} (sound : state.Sound) (bytes : List ℕ) :
    ∀ c, some c ∈ utf8Scan state bytes → IsScalar c := by
  induction bytes generalizing state with
  | nil =>
      intro c member
      cases state with
      | start => cases member
      | pending missing value lower upper =>
          cases List.mem_singleton.mp member
  | cons b bytes ih =>
      obtain ⟨own, next⟩ := utf8Step_sound sound b
      intro c member
      rw [utf8Scan.eq_3] at member
      rcases List.mem_append.mp member with here | behind
      · exact own c here
      · exact ih next c behind

theorem utf8Decode_scalar {bytes : List ℕ} {text : Text} (decoded : utf8Decode bytes = some text) :
    ∀ c ∈ text, IsScalar c := by
  intro c member
  unfold utf8Decode at decoded
  simp only at decoded
  split_ifs at decoded
  obtain rfl := Option.some.inj decoded
  obtain ⟨found, inside, rfl⟩ := List.mem_filterMap.mp member
  have begun : Utf8State.start.Sound := trivial
  exact utf8Scan_scalar begun bytes c inside

/-- The replacement character is one, too. -/
theorem utf8DecodeReplace_scalar (bytes : List ℕ) : ∀ c ∈ utf8DecodeReplace bytes, IsScalar c := by
  intro c member
  obtain ⟨found, inside, rfl⟩ := List.mem_map.mp member
  cases found with
  | none => exact Or.inr (by decide)
  | some c =>
      have begun : Utf8State.start.Sound := trivial
      exact utf8Scan_scalar begun bytes c inside

end ImposbroSearch.Foundation
