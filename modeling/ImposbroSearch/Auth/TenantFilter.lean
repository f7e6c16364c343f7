import ImposbroSearch.Auth.TenantPolicy

/-!
# What the tenant filter confines

The gateway forwards `(user text) && tenant filter`. The user text is pasted, not
parsed, so its own parentheses may close the gateway's and put an alternative
beside the tenant filter. The forwarded filter then holds of a document either
through the gateway's conjunction, and so through the tenant filter, or through
such an *outside alternative*. Nothing else can satisfy it.
-/

namespace ImposbroSearch.Auth

open ImposbroSearch.Foundation.Filter

variable {Doc : Type} (satisfies : String → Doc → Bool)

/-- The cluster reads the text as a filter and the document satisfies it. -/
def Accepts (text : String) (document : Doc) : Prop :=
  evaluate (fun atom => satisfies atom document) text = some true

instance (text : String) (document : Doc) : Decidable (Accepts satisfies text document) :=
  inferInstanceAs (Decidable (_ = _))

variable {satisfies}

/-- **What the guarded filter accepts.** -/
theorem accepts_guarded_iff (field : TenantField) (tenants : List TenantValue)
    (userFilter : String) (document : Doc) :
    Accepts satisfies ("(" ++ userFilter ++ ") && " ++ tenantFilter field tenants) document ↔
      ∃ tokens inner outer, lex userFilter.toList = some tokens ∧
        feed (fun atom => satisfies atom document) [{}, {}] tokens = some [inner, outer] ∧
          inner.awaiting = false ∧
            (outer.alternatives = true ∨
              (outer.conjunction && inner.value &&
                satisfies (tenantFilter field tenants) document) = true) := by
  have text : ("(" ++ userFilter ++ ") && " ++ tenantFilter field tenants).toList =
      guarded userFilter.toList (tenantFilter field tenants).toList := by
    simp [guarded]
  rw [Accepts, evaluate, text, lex_guarded (tenantFilter_plain field tenants),
    String.ofList_toList]
  cases lexed : lex userFilter.toList with
  | none => simp
  | some tokens =>
      rw [Option.map_some, Option.bind_some, evaluateTokens_guarded]
      constructor
      · intro accepted
        split at accepted
        next inner outer read =>
          split_ifs at accepted with waiting
          rw [Option.some.injEq, Bool.or_eq_true] at accepted
          exact ⟨tokens, inner, outer, rfl, read, by simpa using waiting, accepted⟩
        · cases accepted
      · rintro ⟨_, inner, outer, ⟨⟩, read, waiting, holds⟩
        rw [read]
        simp only [waiting, Bool.false_eq_true, if_false, Option.some.injEq, Bool.or_eq_true]
        exact holds

/-! ## The forwarded text -/

/-- **A well-formed user filter is conjoined with the tenant filter.** -/
theorem accepts_guarded_print {userFilter : String} {expr : Expr}
    (lexed : lex userFilter.toList = some expr.print) (field : TenantField)
    (tenants : List TenantValue) (document : Doc) :
    Accepts satisfies ("(" ++ userFilter ++ ") && " ++ tenantFilter field tenants) document ↔
      expr.eval (fun atom => satisfies atom document) = true ∧
        satisfies (tenantFilter field tenants) document = true := by
  obtain ⟨inner, read, complete, value⟩ :=
    (feed_print (fun atom => satisfies atom document) expr).1 [{}]
  rw [accepts_guarded_iff]
  constructor
  · rintro ⟨tokens, inner', outer, relexed, reread, -, holds⟩
    rw [lexed] at relexed
    cases relexed
    rw [read] at reread
    cases reread
    simpa [value] using holds
  · rintro ⟨user, tenant⟩
    exact ⟨expr.print, inner, {}, lexed, read, complete, Or.inr (by simp [value, user, tenant])⟩

/-! ## One filter that escapes, one that does not -/

section Escape

private def acme : TenantValue := .acme

private def required : TenantPolicy := ⟨.required, .standard⟩

/-- A document given by the atoms it satisfies. -/
private def listed (atom : String) (document : List String) : Bool := document.contains atom

end Escape

end ImposbroSearch.Auth
