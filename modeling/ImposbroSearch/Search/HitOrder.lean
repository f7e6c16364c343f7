import ImposbroSearch.Search.FederatedSearch

/-!
# When hits are ordered

`_compare_hits` compares two numbers as numbers, and a number and another value as texts.
The texts of numbers are in an order of their own, so that values of both kinds can stand in
a circle. Hits are ordered, whatever the sort fields are, exactly if their values do not: no
text lies between those of two numbers that are in another order, and no NaN, which ties
with every number, is among different numbers.
-/

namespace ImposbroSearch.Search

open ImposbroSearch.Foundation

variable {F : Type} [PyFloat F] {folded : Json F → Text} {left right : Json F} {n m : PyNumber}

/-! ## Values -/

/-- `first < second`, of numbers. -/
def PyNumber.Less (first second : PyNumber) : Prop :=
  ∃ place ∈ first.place, ∃ place' ∈ second.place, place < place'

/-- The values are in no circle. -/
structure Compatible (folded : Json F → Text) (values : Set (Json F)) : Prop where
  /-- A NaN is among equal numbers only. -/
  nan : ∀ value ∈ values, number value = some .nan →
    ∀ first ∈ values, ∀ n ∈ number first, ∀ second ∈ values, ∀ m ∈ number second, ¬n.Less m
  /-- A text between the texts of two numbers: the numbers are in the order of their texts. -/
  between : ∀ first ∈ values, ∀ n ∈ number first, ∀ second ∈ values, ∀ m ∈ number second,
    ∀ text ∈ values, number text = none → folded first ≤ folded text → folded text ≤ folded second →
      n.Less m ∨ ¬m.Less n ∧ folded first = folded text ∧ folded text = folded second

theorem compareScalar_numbers (folded : Json F → Text) (first : number left = some n) (second : number right = some m) :
    (compareScalar folded left right = .lt ↔ n.Less m) ∧
      (compareScalar folded left right = .gt ↔ m.Less n) := by
  unfold compareScalar PyNumber.Less
  simp only [first, second]
  cases n.place with
  | none => simp
  | some place =>
      cases m.place with
      | none => simp
      | some place' =>
          unfold comparison
          rcases lt_trichotomy place place' with less | rfl | more
          · simp [less, less.not_gt]
          · simp
          · simp [more, more.not_gt]

theorem compareScalar_texts (other : number left = none ∨ number right = none) :
    compareScalar folded left right = comparison (folded left) (folded right) := by
  unfold compareScalar
  rcases other with first | second
  · simp only [first]
  · cases first : number left with
    | none => rfl
    | some n => simp only [second]

theorem compareScalar_swap (left right : Json F) :
    compareScalar folded right left = (compareScalar folded left right).swap := by
  cases first : number left with
  | none =>
      rw [compareScalar_texts (Or.inr first), compareScalar_texts (Or.inl first), comparison_swap]
  | some n =>
      cases second : number right with
      | none =>
          rw [compareScalar_texts (Or.inl second), compareScalar_texts (Or.inr second),
            comparison_swap]
      | some m =>
          have forth := compareScalar_numbers folded first second
          have back := compareScalar_numbers folded second first
          cases here : compareScalar folded left right with
          | lt => exact back.2.mpr (forth.1.mp here)
          | gt => exact back.1.mpr (forth.2.mp here)
          | eq =>
              cases there : compareScalar folded right left with
              | eq => rfl
              | lt => rw [forth.2.mpr (back.1.mp there)] at here; cases here
              | gt => rw [forth.1.mpr (back.2.mp there)] at here; cases here

/-- Numbers that are not NaN are compared by their places. -/
theorem PyNumber.less_trans {first second third : PyNumber} (real : second ≠ .nan)
    (notMore : ¬second.Less first) (notMore' : ¬third.Less second) : ¬third.Less first := by
  rintro ⟨place, here, place', there, less⟩
  have placed : ∃ middle, second.place = some middle := by
    cases second with
    | finite value => exact ⟨_, rfl⟩
    | infinite negative => cases negative <;> exact ⟨_, rfl⟩
    | nan => exact absurd rfl real
  obtain ⟨middle, at_⟩ := placed
  have low : place' ≤ middle := by
    by_contra above
    exact notMore ⟨middle, at_, place', there, not_le.mp above⟩
  have high : middle ≤ place := by
    by_contra above
    exact notMore' ⟨place, here, middle, at_, not_le.mp above⟩
  exact absurd less (not_lt.mpr (low.trans high))

/-- **Values in no circle** are ranked. -/
theorem Compatible.trans {values : Set (Json F)} (compatible : Compatible folded values)
    {a b c : Json F} (first : a ∈ values) (second : b ∈ values) (third : c ∈ values)
    (le : compareScalar folded a b ≠ .gt) (le' : compareScalar folded b c ≠ .gt) :
    compareScalar folded a c ≠ .gt := by
  cases na : number a with
  | none =>
      rw [compareScalar_texts (Or.inl na), comparison_ne_gt] at le ⊢
      cases nb : number b with
      | none =>
          rw [compareScalar_texts (Or.inl nb), comparison_ne_gt] at le'
          exact le.trans le'
      | some n =>
          cases nc : number c with
          | none =>
              rw [compareScalar_texts (Or.inr nc), comparison_ne_gt] at le'
              exact le.trans le'
          | some m =>
              -- the text a would be between c and b
              rw [ne_eq, (compareScalar_numbers folded nb nc).2] at le'
              by_contra before
              rcases compatible.between c third m nc b second n nb a first na (not_le.mp before).le le
                with less | ⟨-, same, -⟩
              · exact le' less
              · exact before same.ge
  | some n =>
      cases nb : number b with
      | none =>
          rw [compareScalar_texts (Or.inr nb), comparison_ne_gt] at le
          rw [compareScalar_texts (Or.inl nb), comparison_ne_gt] at le'
          cases nc : number c with
          | none =>
              rw [compareScalar_texts (Or.inr nc), comparison_ne_gt]
              exact le.trans le'
          | some m =>
              -- the text b is between a and c
              rw [ne_eq, (compareScalar_numbers folded na nc).2]
              rcases compatible.between a first n na c third m nc b second nb le le' with
                less | ⟨notMore, -⟩
              · obtain ⟨place, here, place', there, less⟩ := less
                rintro ⟨place₂, here₂, place₂', there₂, more⟩
                obtain rfl := Option.mem_unique here there₂
                obtain rfl := Option.mem_unique there here₂
                exact absurd less more.not_gt
              · exact notMore
      | some m =>
          rw [ne_eq, (compareScalar_numbers folded na nb).2] at le
          cases nc : number c with
          | none =>
              -- the text c would be between b and a
              rw [compareScalar_texts (Or.inr nc), comparison_ne_gt] at le' ⊢
              by_contra before
              rcases compatible.between b second m nb a first n na c third nc le'
                (not_le.mp before).le with less | ⟨-, -, same⟩
              · exact le less
              · exact before same.ge
          | some k =>
              rw [ne_eq, (compareScalar_numbers folded nb nc).2] at le'
              rw [ne_eq, (compareScalar_numbers folded na nc).2]
              by_cases real : m = .nan
              · subst real
                exact compatible.nan b second nb c third k nc a first n na
              · exact PyNumber.less_trans real le le'

theorem ranksOn_compareScalar_iff (values : Set (Json F)) :
    RanksOn (compareScalar folded) (· ∈ values) ↔ Compatible folded values := by
  constructor
  · intro ranks
    constructor
    case nan =>
      intro value here isNan first there n isNumber second there' m isNumber' less
      have tie : ∀ other k, number other = some k → compareScalar folded other value ≠ .gt ∧
          compareScalar folded value other ≠ .gt := by
        intro other k isNumber
        rw [ne_eq, ne_eq, (compareScalar_numbers folded isNumber isNan).2,
          (compareScalar_numbers folded isNan isNumber).2]
        constructor
        · rintro ⟨place, none_, -⟩
          cases none_
        · rintro ⟨place, -, place', none_, -⟩
          cases none_
      have back := ranks.trans there' here there (tie second m isNumber').1 (tie first n isNumber).2
      rw [ne_eq, (compareScalar_numbers folded isNumber' isNumber).2] at back
      exact back less
    case between =>
      intro first here n isNumber second there m isNumber' text at_ noNumber low high
      have forth : compareScalar folded first text ≠ .gt := by
        rwa [compareScalar_texts (Or.inr noNumber), comparison_ne_gt]
      have back : compareScalar folded text second ≠ .gt := by
        rwa [compareScalar_texts (Or.inl noNumber), comparison_ne_gt]
      have notMore := ranks.trans here at_ there forth back
      rw [ne_eq, (compareScalar_numbers folded isNumber isNumber').2] at notMore
      refine or_iff_not_imp_left.mpr fun notLess => ⟨notMore, ?_⟩
      -- the numbers tie, so that the text ties with both
      have closed : compareScalar folded second first ≠ .gt := by
        rwa [ne_eq, (compareScalar_numbers folded isNumber' isNumber).2]
      have low' := ranks.trans at_ there here back closed
      have high' := ranks.trans there here at_ closed forth
      rw [compareScalar_texts (Or.inl noNumber), comparison_ne_gt] at low'
      rw [compareScalar_texts (Or.inr noNumber), comparison_ne_gt] at high'
      exact ⟨le_antisymm low low', le_antisymm high high'⟩
  · exact fun compatible => ⟨fun _ _ => compareScalar_swap _ _, compatible.trans⟩

/-! ## Hits -/

/-- The sort values of the hits are of these. -/
def SortValuesIn (values : Set (Json F)) (fields : List SortField) (hits : List (SearchHit F)) :
    Prop :=
  ∀ hit ∈ hits, ∀ sort ∈ fields, ∀ value ∈ hit.sortValue sort.field, value ∈ values

/-- The hits are ordered up to equal ids, and the order of their merge does not depend on
the order in which they came. -/
structure HitsOrdered (folded : Json F → Text) (fields : List SortField)
    (hits : List (SearchHit F)) : Prop where
  ordered : OrderedOn SearchHit.documentId (compareHits folded fields) (· ∈ hits)
  merged : ∀ other : List (SearchHit F), other.Perm hits →
    (sortedHits folded fields other).map SearchHit.documentId =
      (sortedHits folded fields hits).map SearchHit.documentId

omit [PyFloat F] in
theorem SearchHit.sortValue_ne_null {hit : SearchHit F} {field : Text} {value : Json F}
    (here : value ∈ hit.sortValue field) : value ≠ .null := by
  rintro rfl
  have never : ∀ stored : Option (Json F), present stored ≠ some .null := by
    intro stored
    unfold present
    split
    · nofun
    · next other => exact other
  unfold SearchHit.sortValue at here
  split at here
  · exact never _ here
  · split at here
    · exact never _ here
    · exact never _ here

theorem hitsOrdered_of_compatible {values : Set (Json F)} {fields : List SortField}
    {hits : List (SearchHit F)}
    (compatible : Compatible folded {value ∈ values | value ≠ .null})
    (inside : SortValuesIn values fields hits) : HitsOrdered folded fields hits := by
  have ranks : RanksOn (compareFields folded fields) (· ∈ hits) := by
    induction fields with
    | nil => exact ⟨fun _ _ => rfl, fun _ _ _ _ _ gt => (nomatch gt)⟩
    | cons sort fields ih =>
        refine RanksOn.then (ranksOn_compareField ((ranksOn_compareScalar_iff _).mpr compatible) ?_)
          (ih fun hit listed other member => inside hit listed other (List.mem_cons_of_mem _ member))
        exact fun hit listed value here =>
          ⟨inside hit listed sort List.mem_cons_self value here, SearchHit.sortValue_ne_null here⟩
  have ordered : OrderedOn SearchHit.documentId (compareHits folded fields) (· ∈ hits) :=
    ⟨ranks.then (ranksOn_comparison _),
      fun _ _ same => comparison_eq.mp (Ordering.then_eq_eq.mp same).2⟩
  refine ⟨ordered, fun other same => ?_⟩
  have sameIds : (withIds other).Perm (withIds hits) := same.filter _
  have ordered' : OrderedOn SearchHit.documentId (compareHits folded fields) (· ∈ withIds hits) :=
    ordered.mono fun _ => List.mem_of_mem_filter
  exact (isMerge_mergeBest ordered').map_key_eq
    (isMerge_mergeBest (ordered'.mono fun _ => sameIds.mem_iff.mp)) ordered' sameIds

/-! ## Any values -/

/-- A hit with an id and a price. -/
def priced (id : Text) (price : Json F) : SearchHit F where
  document := .object [(chars "id", .str id), (chars "price", price)]
  textMatch := none
  vectorDistance := none
  highlights := .null

def byPrice : List SortField := [⟨chars "price", .asc⟩]

omit [PyFloat F] in
theorem sortValue_priced {id : Text} {price : Json F} (there : price ≠ .null) :
    (priced id price).sortValue (chars "price") = some price := by
  have stored : getDocumentValue (priced id price).document (chars "price") = some price := rfl
  have kept : present (some price) = some price := by
    unfold present
    split
    next same => exact absurd (Option.some.inj same) there
    · rfl
  unfold SearchHit.sortValue
  rw [if_neg (by decide), if_neg (by decide), stored, kept]

theorem compareHits_priced (id : Text) (first : left ≠ .null) (second : right ≠ .null) :
    compareHits folded byPrice (priced id left) (priced id right) =
      compareScalar folded left right := by
  have one : compareField folded ⟨chars "price", .asc⟩ (priced id left) (priced id right) =
      compareScalar folded left right := by
    unfold compareField
    simp only [sortValue_priced first, sortValue_priced second]
  have same : comparison (priced id left).documentId (priced id right).documentId = .eq :=
    comparison_eq.mpr rfl
  unfold compareHits byPrice compareFields compareFields
  rw [one, same, Ordering.then_eq, Ordering.then_eq]

/-- **When hits are ordered.** Whatever hits have sort values of a set, and whatever the sort
fields are, the hits are ordered up to equal ids, and merged in an order that does not
depend on how they came: this is so exactly if the values of the set are in no circle. -/
theorem hits_ordered_iff (values : Set (Json F)) :
    (∀ fields hits, SortValuesIn values fields hits → HitsOrdered folded fields hits) ↔
      Compatible folded {value ∈ values | value ≠ .null} := by
  constructor
  · intro all
    rw [← ranksOn_compareScalar_iff]
    refine ⟨fun _ _ => compareScalar_swap _ _, fun {a b c} first second third le le' => ?_⟩
    have inside : SortValuesIn values byPrice
        [priced (chars "n1") a, priced (chars "n1") b, priced (chars "n1") c] := by
      intro hit listed sort member value here
      obtain rfl := List.mem_singleton.mp member
      have known : ∀ {price : Json F}, price ∈ {value ∈ values | value ≠ .null} →
          hit = priced (chars "n1") price → value ∈ values := by
        rintro price there rfl
        rw [sortValue_priced there.2] at here
        exact Option.some.inj here ▸ there.1
      simp only [List.mem_cons, List.not_mem_nil, or_false] at listed
      rcases listed with rfl | rfl | rfl
      · exact known first rfl
      · exact known second rfl
      · exact known third rfl
    have ordered := (all byPrice _ inside).ordered
    rw [← compareHits_priced (chars "n1") first.2 second.2] at le
    rw [← compareHits_priced (chars "n1") second.2 third.2] at le'
    rw [← compareHits_priced (chars "n1") first.2 third.2]
    exact ordered.trans (by simp) (by simp) (by simp) le le'
  · exact fun compatible fields hits inside => hitsOrdered_of_compatible compatible inside

/-- `str(value).casefold()`, of integers from zero on and of strings of ASCII. -/
def plainText : Json SampleFloat → Text
  | .int n => natText n.toNat
  | .str text => text.map fun c => if 65 ≤ c ∧ c ≤ 90 then c + 32 else c
  | _ => []

/-- The price 2, the price 10, and a price that is the text "1a". -/
def mixedHits : List (SearchHit SampleFloat) :=
  [priced (chars "n1") (.int 2), priced (chars "n2") (.int 10),
    priced (chars "n3") (.str (chars "1a"))]

/-- Prices in a circle: 2 is before 10, 10 before "1a", and "1a" before 2. -/
theorem prices_in_a_circle :
    (∀ first second, (first, second) ∈ [(0, 1), (1, 2), (2, 0)] →
      ∃ left ∈ mixedHits[first]?, ∃ right ∈ mixedHits[second]?,
        compareHits plainText byPrice left right = .lt) ∧
      ¬HitsOrdered plainText byPrice mixedHits := by
  have circle : ∀ first second, (first, second) ∈ [(0, 1), (1, 2), (2, 0)] →
      ∃ left ∈ mixedHits[first]?, ∃ right ∈ mixedHits[second]?,
        compareHits plainText byPrice left right = .lt := by
    intro first second member
    simp only [List.mem_cons, Prod.mk.injEq, List.not_mem_nil, or_false] at member
    rcases member with ⟨rfl, rfl⟩ | ⟨rfl, rfl⟩ | ⟨rfl, rfl⟩
    · exact ⟨_, rfl, _, rfl, by decide +kernel⟩
    · exact ⟨_, rfl, _, rfl, by decide +kernel⟩
    · exact ⟨_, rfl, _, rfl, by decide +kernel⟩
  refine ⟨circle, fun hits => ?_⟩
  obtain ⟨two, here, ten, there, lt⟩ := circle 0 1 (by decide)
  obtain ⟨ten', there', text, last, lt'⟩ := circle 1 2 (by decide)
  obtain ⟨text', last', two', here', lt''⟩ := circle 2 0 (by decide)
  obtain rfl := Option.mem_unique there there'
  obtain rfl := Option.mem_unique last last'
  obtain rfl := Option.mem_unique here here'
  have first := List.mem_of_getElem? here
  have third := List.mem_of_getElem? last
  have back := hits.ordered.trans first (List.mem_of_getElem? there) third (by rw [lt]; decide)
    (by rw [lt']; decide)
  rw [hits.ordered.swap third first, lt''] at back
  exact back rfl

end ImposbroSearch.Search
