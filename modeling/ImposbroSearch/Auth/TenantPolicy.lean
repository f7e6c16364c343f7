import ImposbroSearch.Foundation.FilterGrammar

/-!
# Tenant policy of a collection

A collection's policy names a tenant field and a mode. Under `required` and
`inject` every request carries the tenant values of its token. Field paths and
tenant values are restricted to characters that mean nothing in the engine's
filter language, so the filter built from them is a single atom.
-/

namespace ImposbroSearch.Auth

open ImposbroSearch.Foundation.Filter

def isAsciiLetter (c : Char) : Bool :=
  ('A' ≤ c && c ≤ 'Z') || ('a' ≤ c && c ≤ 'z')

def isAsciiDigit (c : Char) : Bool := '0' ≤ c && c ≤ '9'

/-- A character of `TENANT_VALUE_PATTERN`. -/
def isTenantValueChar (c : Char) : Bool :=
  isAsciiLetter c || isAsciiDigit c || c = '_' || c = '-'

/-- A character of `TENANT_FIELD_PATTERN` after the first. -/
def isTenantFieldChar (c : Char) : Bool :=
  isAsciiLetter c || isAsciiDigit c || c = '_' || c = '.'

/-- A tenant value of a token: `^[A-Za-z0-9_-]{1,128}$`. -/
structure TenantValue where
  text : String
  length : 1 ≤ text.length ∧ text.length ≤ 128 := by decide
  chars : ∀ c ∈ text.toList, isTenantValueChar c = true := by rw [← List.all_eq_true]; decide

/-- The policy's field path: `^[A-Za-z_][A-Za-z0-9_.]*$`. -/
structure TenantField where
  path : String
  first : (path.toList.head?.any fun c => isAsciiLetter c || c = '_') = true := by decide
  chars : ∀ c ∈ path.toList, isTenantFieldChar c = true := by rw [← List.all_eq_true]; decide

/-- The field of a policy that names none. -/
def TenantField.standard : TenantField := { path := "tenant_id" }

/-- The tenant whose requests the examples below are about. -/
def TenantValue.acme : TenantValue := { text := "acme" }

inductive PolicyMode where
  | off
  | required
  | inject
  deriving DecidableEq, Repr

structure TenantPolicy where
  mode : PolicyMode
  field : TenantField

/-- `_tenant_filter` -/
def tenantFilter (field : TenantField) (tenants : List TenantValue) : String :=
  match tenants with
  | [tenant] => field.path ++ ":=" ++ tenant.text
  | tenants => field.path ++ ":=[" ++ ",".intercalate (tenants.map TenantValue.text) ++ "]"

/-- The characters `str.strip` removes. -/
def isPythonSpace (c : Char) : Bool :=
  [0x09, 0x0a, 0x0b, 0x0c, 0x0d, 0x1c, 0x1d, 0x1e, 0x1f, 0x20, 0x85, 0xa0, 0x1680, 0x2000,
    0x2001, 0x2002, 0x2003, 0x2004, 0x2005, 0x2006, 0x2007, 0x2008, 0x2009, 0x200a, 0x2028,
    0x2029, 0x202f, 0x205f, 0x3000].contains c.toNat

/-- `str.strip` -/
def strip (text : String) : String := String.ofList (trim isPythonSpace text.toList)

/-- What a character of a tenant filter is not. -/
def Harmless (c : Char) : Prop :=
  c.isWhitespace = false ∧ isPythonSpace c = false ∧
    c ≠ '\x60' ∧ c ≠ '(' ∧ c ≠ ')' ∧ c ≠ '&' ∧ c ≠ '|'

theorem char_bounds {c low high : Char} (h : (low ≤ c && c ≤ high) = true) :
    low.toNat ≤ c.toNat ∧ c.toNat ≤ high.toNat := by
  simp only [Bool.and_eq_true, decide_eq_true_eq] at h
  exact ⟨UInt32.le_iff_toNat_le.mp h.1, UInt32.le_iff_toNat_le.mp h.2⟩

/-- The codes of the characters a tenant filter is made of. -/
theorem tenantChar_code {c : Char}
    (tenant : isTenantValueChar c = true ∨ isTenantFieldChar c = true ∨
      c ∈ [':', '=', '[', ']', ',']) : 44 ≤ c.toNat ∧ c.toNat ≤ 122 ∧ c.toNat ≠ 96 := by
  have letter : isAsciiLetter c = true → 44 ≤ c.toNat ∧ c.toNat ≤ 122 ∧ c.toNat ≠ 96 := by
    intro h
    rw [isAsciiLetter, Bool.or_eq_true] at h
    rcases h with upper | lower
    · have bounds := char_bounds upper
      simp only [Char.reduceToNat] at bounds
      omega
    · have bounds := char_bounds lower
      simp only [Char.reduceToNat] at bounds
      omega
  have digit : isAsciiDigit c = true → 44 ≤ c.toNat ∧ c.toNat ≤ 122 ∧ c.toNat ≠ 96 := by
    intro h
    have bounds := char_bounds h
    simp only [Char.reduceToNat] at bounds
    omega
  rcases tenant with value | field | syntaxChar
  · simp only [isTenantValueChar, Bool.or_eq_true, decide_eq_true_eq] at value
    rcases value with ((isLetter | isDigit) | rfl) | rfl
    · exact letter isLetter
    · exact digit isDigit
    · decide
    · decide
  · simp only [isTenantFieldChar, Bool.or_eq_true, decide_eq_true_eq] at field
    rcases field with ((isLetter | isDigit) | rfl) | rfl
    · exact letter isLetter
    · exact digit isDigit
    · decide
    · decide
  · simp only [List.mem_cons, List.not_mem_nil, or_false] at syntaxChar
    rcases syntaxChar with rfl | rfl | rfl | rfl | rfl
    all_goals decide

theorem harmless_of_code {c : Char} (low : 44 ≤ c.toNat) (high : c.toNat ≤ 122)
    (quote : c.toNat ≠ 96) : Harmless c := by
  have ne : ∀ d : Char, d.toNat < 44 ∨ 122 < d.toNat ∨ d.toNat = 96 → c ≠ d := by
    rintro d code rfl
    omega
  refine ⟨?_, ?_, ne _ (by decide), ne _ (by decide), ne _ (by decide), ne _ (by decide),
    ne _ (by decide)⟩
  · rw [Char.isWhitespace, decide_eq_false (ne ' ' (by decide)),
      decide_eq_false (ne '\t' (by decide)), decide_eq_false (ne '\r' (by decide)),
      decide_eq_false (ne '\n' (by decide))]
    rfl
  · rw [isPythonSpace, ← Bool.not_eq_true, List.contains_iff_mem]
    simp only [List.mem_cons, List.not_mem_nil, or_false]
    omega

theorem mem_intercalate {c : Char} {separator : String} :
    ∀ {parts : List String}, c ∈ (separator.intercalate parts).toList →
      c ∈ separator.toList ∨ ∃ part ∈ parts, c ∈ part.toList
  | [], member => by simp at member
  | [part], member => Or.inr ⟨part, List.mem_singleton.mpr rfl, by simpa using member⟩
  | part :: next :: parts, member => by
      rw [String.intercalate_cons_cons, String.toList_append, String.toList_append,
        List.mem_append, List.mem_append] at member
      rcases member with (member | member) | member
      · exact Or.inr ⟨part, List.mem_cons_self, member⟩
      · exact Or.inl member
      · rcases mem_intercalate member with member | ⟨other, found, member⟩
        · exact Or.inl member
        · exact Or.inr ⟨other, List.mem_cons_of_mem _ found, member⟩

/-- Every character of a tenant filter is harmless. -/
theorem tenantFilter_harmless (field : TenantField) (tenants : List TenantValue) :
    ∀ c ∈ (tenantFilter field tenants).toList, Harmless c := by
  intro c member
  suffices tenant : isTenantValueChar c = true ∨ isTenantFieldChar c = true ∨
      c ∈ [':', '=', '[', ']', ','] by
    obtain ⟨low, high, quote⟩ := tenantChar_code tenant
    exact harmless_of_code low high quote
  unfold tenantFilter at member
  split at member
  next tenant =>
    simp only [String.toList_append, List.mem_append] at member
    rcases member with (inField | inSyntax) | inValue
    · exact Or.inr (Or.inl (field.chars c inField))
    · have found : c ∈ [':', '='] := inSyntax
      simp only [List.mem_cons, List.not_mem_nil, or_false] at found ⊢
      tauto
    · exact Or.inl (tenant.chars c inValue)
  · simp only [String.toList_append, List.mem_append] at member
    rcases member with ((inField | inSyntax) | inValues) | inSyntax
    · exact Or.inr (Or.inl (field.chars c inField))
    · have found : c ∈ [':', '=', '['] := inSyntax
      simp only [List.mem_cons, List.not_mem_nil, or_false] at found ⊢
      tauto
    · rcases mem_intercalate inValues with comma | ⟨text, listed, inText⟩
      · have found : c ∈ [','] := comma
        simp only [List.mem_cons, List.not_mem_nil, or_false] at found ⊢
        tauto
      · obtain ⟨tenant, -, rfl⟩ := List.mem_map.mp listed
        exact Or.inl (tenant.chars c inText)
    · have found : c ∈ [']'] := inSyntax
      simp only [List.mem_cons, List.not_mem_nil, or_false] at found ⊢
      tauto

theorem tenantFilter_ne_nil (field : TenantField) (tenants : List TenantValue) :
    (tenantFilter field tenants).toList ≠ [] := by
  have nonempty : field.path.toList ≠ [] := by
    intro empty
    have first := field.first
    rw [empty] at first
    cases first
  unfold tenantFilter
  split
  · simp only [String.toList_append, ne_eq, List.append_eq_nil_iff, nonempty, false_and,
      not_false_eq_true]
  · simp only [String.toList_append, ne_eq, List.append_eq_nil_iff, nonempty, false_and,
      not_false_eq_true]

/-- **The tenant filter is one atom.** -/
theorem tenantFilter_plain (field : TenantField) (tenants : List TenantValue) :
    PlainAtom (tenantFilter field tenants).toList where
  ne_nil := tenantFilter_ne_nil field tenants
  solid c member := (tenantFilter_harmless field tenants c member).1
  plain c member := (tenantFilter_harmless field tenants c member).2.2

end ImposbroSearch.Auth
