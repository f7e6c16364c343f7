import Mathlib.Data.List.Basic
import Mathlib.Tactic.Common

/-!
# A boolean filter language read from text

Atoms are combined with `&&`, `||`, and parentheses; `&&` binds tighter than
`||`; a pair of backticks quotes everything between them. A text denotes, for one
assignment of truth values to atoms, a truth value or nothing when it is not well
formed.

The reader is a stack machine with one frame for each open parenthesis. A frame
keeps only whether an alternative of its disjunction already holds and the value
of the conjunction being read, so a proof about a text is a proof about a fold.
`feed_print` ties the machine to syntax trees printed with minimal parentheses.
-/

namespace ImposbroSearch.Foundation.Filter

inductive Token where
  | lpar
  | rpar
  | and
  | or
  | atom (text : String)
  deriving DecidableEq, Repr

/-! ## The lexer -/

/-- Remove blanks from both ends. -/
def trim (blank : Char → Bool) (text : List Char) : List Char :=
  ((text.dropWhile blank).reverse.dropWhile blank).reverse

/-- Close the atom read so far, if there is one, without the blanks around it.
`pending` is in reverse. -/
def flush (pending : List Char) (tokens : List Token) : List Token :=
  match trim Char.isWhitespace pending.reverse with
  | [] => tokens
  | text => .atom (String.ofList text) :: tokens

/-- The lexer, after the characters `pending` of the current atom. The second
character of an operator looks back at the first. A quote that is never closed is
an error. -/
def lexFrom (pending : List Char) : (quoted : Bool) → List Char → Option (List Token)
  | true, [] => none
  | false, [] => some (flush pending [])
  | true, c :: rest => lexFrom (c :: pending) (c ≠ '\x60') rest
  | false, c :: rest =>
    if c = '\x60' then lexFrom (c :: pending) true rest
    else if c = '(' then
      (lexFrom [] false rest).map fun tokens => flush pending (.lpar :: tokens)
    else if c = ')' then
      (lexFrom [] false rest).map fun tokens => flush pending (.rpar :: tokens)
    else if c = '&' ∧ pending.head? = some '&' then
      (lexFrom [] false rest).map fun tokens => flush pending.tail (.and :: tokens)
    else if c = '|' ∧ pending.head? = some '|' then
      (lexFrom [] false rest).map fun tokens => flush pending.tail (.or :: tokens)
    else lexFrom (c :: pending) false rest

def lex (text : List Char) : Option (List Token) := lexFrom [] false text

/-! ## The reader -/

/-- One open parenthesis: whether a finished alternative holds, the conjunction
read so far, and whether an operand must come next. -/
structure Frame where
  alternatives : Bool := false
  conjunction : Bool := true
  awaiting : Bool := true
  deriving DecidableEq, Repr

namespace Frame

def value (frame : Frame) : Bool := frame.alternatives || frame.conjunction

/-- The frame after one more operand of the current conjunction. -/
def operand (frame : Frame) (value : Bool) : Frame :=
  ⟨frame.alternatives, frame.conjunction && value, false⟩

end Frame

section Reader

variable (satisfies : String → Bool)

def feedToken : List Frame → Token → Option (List Frame)
  | frame :: outer, .atom text =>
    if frame.awaiting then some (frame.operand (satisfies text) :: outer) else none
  | frame :: outer, .lpar => if frame.awaiting then some ({} :: frame :: outer) else none
  | frame :: parent :: outer, .rpar =>
    if frame.awaiting then none else some (parent.operand frame.value :: outer)
  | frame :: outer, .and =>
    if frame.awaiting then none else some ({ frame with awaiting := true } :: outer)
  | frame :: outer, .or =>
    if frame.awaiting then none else some ({ alternatives := frame.value } :: outer)
  | _, _ => none

def feed : List Frame → List Token → Option (List Frame)
  | stack, [] => some stack
  | stack, token :: tokens => (feedToken satisfies stack token).bind (feed · tokens)

def evaluateTokens (tokens : List Token) : Option Bool :=
  match feed satisfies [{}] tokens with
  | some [frame] => if frame.awaiting then none else some frame.value
  | _ => none

/-- The truth value a text denotes, if it is well formed. -/
def evaluate (text : String) : Option Bool :=
  (lex text.toList).bind (evaluateTokens satisfies)

end Reader

variable {satisfies : String → Bool}

theorem feed_append (stack : List Frame) (tokens rest : List Token) :
    feed satisfies stack (tokens ++ rest) =
      (feed satisfies stack tokens).bind (feed satisfies · rest) := by
  induction tokens generalizing stack with
  | nil => rfl
  | cons token tokens ih =>
      rw [List.cons_append, feed, feed, Option.bind_assoc]
      exact Option.bind_congr fun reached _ => ih reached

/-! ## Lexing a text that is closed by a parenthesis -/

/-- A text without blanks is its own trimming, with or without a blank before it. -/
theorem trim_solid {blank : Char → Bool} {text : List Char}
    (solid : ∀ c ∈ text, blank c = false) : trim blank text = text := by
  have none_dropped : ∀ l : List Char, (∀ c ∈ l, blank c = false) → l.dropWhile blank = l := by
    intro l solid
    cases l with
    | nil => rfl
    | cons c l => rw [List.dropWhile_cons, if_neg (by simp [solid c List.mem_cons_self])]
  rw [trim, none_dropped text solid, none_dropped text.reverse fun c member =>
    solid c (List.mem_reverse.mp member), List.reverse_reverse]

theorem trim_cons_blank {blank : Char → Bool} {c : Char} (isBlank : blank c = true)
    (text : List Char) : trim blank (c :: text) = trim blank text := by
  rw [trim, trim, List.dropWhile_cons, if_pos isBlank]

/-- An open quote with no closing one is an error. -/
theorem lexFrom_unclosed {rest : List Char} (plain : '\x60' ∉ rest) (pending : List Char) :
    lexFrom pending true rest = none := by
  induction rest generalizing pending with
  | nil => rfl
  | cons c rest ih =>
      rw [List.mem_cons, not_or] at plain
      rw [lexFrom, decide_eq_true (Ne.symm plain.1)]
      exact ih plain.2 _

theorem flush_append (pending : List Char) (tokens rest : List Token) :
    flush pending (tokens ++ rest) = flush pending tokens ++ rest := by
  unfold flush
  split
  · rfl
  · rfl

/-- **Closing parenthesis.** What follows a closing parenthesis is lexed apart
from what stands before it, unless a quote is open. -/
theorem lexFrom_rpar {after : List Char} (plain : '\x60' ∉ after) :
    ∀ (before pending : List Char) (quoted : Bool),
      lexFrom pending quoted (before ++ ')' :: after) =
        (lexFrom pending quoted before).bind fun tokens =>
          (lexFrom [] false after).map fun rest => tokens ++ .rpar :: rest := by
  intro before
  induction before with
  | nil =>
      intro pending quoted
      cases quoted with
      | true => exact lexFrom_unclosed (by simpa using plain) pending
      | false =>
          simp only [List.nil_append, lexFrom, Option.bind_some]
          rw [if_neg (by decide), if_neg (by decide), if_pos trivial]
          exact Option.map_congr fun rest _ => flush_append pending [] (.rpar :: rest)
  | cons c before ih =>
      -- an operator ends an atom on both sides of the equation
      have operator : ∀ (pending : List Char) (token : Token),
          ((lexFrom [] false (before ++ ')' :: after)).map
              fun tokens => flush pending (token :: tokens)) =
            ((lexFrom [] false before).map fun tokens => flush pending (token :: tokens)).bind
              fun tokens => (lexFrom [] false after).map fun rest => tokens ++ .rpar :: rest := by
        intro pending token
        rw [ih [] false, Option.map_bind, Option.bind_map]
        refine Option.bind_congr fun tokens _ => ?_
        rw [Function.comp_apply, Option.map_map]
        exact Option.map_congr fun rest _ =>
          flush_append pending (token :: tokens) (.rpar :: rest)
      intro pending quoted
      rw [List.cons_append]
      cases quoted with
      | true =>
          rw [lexFrom, lexFrom]
          exact ih _ _
      | false =>
          rw [lexFrom, lexFrom]
          split_ifs
          · exact ih _ _
          · exact operator _ _
          · exact operator _ _
          · exact operator _ _
          · exact operator _ _
          · exact ih _ _

/-- A text without quotes, parentheses, or operators is a single atom. -/
theorem lexFrom_plain {text : List Char}
    (plain : ∀ c ∈ text, c ≠ '\x60' ∧ c ≠ '(' ∧ c ≠ ')' ∧ c ≠ '&' ∧ c ≠ '|')
    (pending : List Char) :
    lexFrom pending false text = some (flush (text.reverse ++ pending) []) := by
  induction text generalizing pending with
  | nil => rfl
  | cons c text ih =>
      obtain ⟨quote, lpar, rpar, and, or⟩ := plain c List.mem_cons_self
      rw [lexFrom, if_neg quote, if_neg lpar, if_neg rpar, if_neg fun h => and h.1,
        if_neg fun h => or h.1, ih fun other member => plain other (List.mem_cons_of_mem _ member)]
      simp

/-- The text of an atom that needs no quoting: not empty, and without blanks,
quotes, parentheses, or operator characters. -/
structure PlainAtom (text : List Char) : Prop where
  ne_nil : text ≠ []
  solid : ∀ c ∈ text, c.isWhitespace = false
  plain : ∀ c ∈ text, c ≠ '\x60' ∧ c ≠ '(' ∧ c ≠ ')' ∧ c ≠ '&' ∧ c ≠ '|'

theorem PlainAtom.flush {text : List Char} (atom : PlainAtom text) :
    flush text.reverse [] = [.atom (String.ofList text)] := by
  unfold Filter.flush
  rw [List.reverse_reverse, trim_solid atom.solid]
  obtain ⟨ne_nil, -, -⟩ := atom
  cases text with
  | nil => exact absurd rfl ne_nil
  | cons c text => rfl

theorem PlainAtom.lex {text : List Char} (atom : PlainAtom text) :
    lex text = some [.atom (String.ofList text)] := by
  rw [Filter.lex, lexFrom_plain atom.plain, List.append_nil, atom.flush]

/-- A user's text between parentheses, conjoined with a guard atom. -/
def guarded (user guard : List Char) : List Char :=
  '(' :: user ++ ')' :: ' ' :: '&' :: '&' :: ' ' :: guard

/-- **The guard is lexed apart from the text it guards.** -/
theorem lex_guarded {guard : List Char} (atom : PlainAtom guard) (user : List Char) :
    lex (guarded user guard) =
      (lex user).map fun tokens =>
        .lpar :: tokens ++ [.rpar, .and, .atom (String.ofList guard)] := by
  have quoteFree : '\x60' ∉ ' ' :: '&' :: '&' :: ' ' :: guard := by
    intro member
    simp only [List.mem_cons, Char.reduceEq, false_or] at member
    exact (atom.plain _ member).1 rfl
  have tail : lexFrom [] false (' ' :: '&' :: '&' :: ' ' :: guard) =
      some [.and, .atom (String.ofList guard)] := by
    have blank : Filter.flush (guard.reverse ++ [' ']) [] = [.atom (String.ofList guard)] := by
      rw [← atom.flush, Filter.flush, Filter.flush, List.reverse_append, List.reverse_singleton,
        List.singleton_append, trim_cons_blank (by decide)]
    simp only [lexFrom, lexFrom_plain atom.plain, blank]
    rfl
  rw [guarded, List.cons_append, Filter.lex, Filter.lex, lexFrom, if_neg (by decide), if_pos rfl,
    lexFrom_rpar quoteFree, tail]
  cases lexFrom [] false user with
  | none => rfl
  | some tokens => rfl

/-- What the guard `( … ) && atom` is worth once the text between the parentheses
has been read. -/
theorem evaluateTokens_guarded (tokens : List Token) (text : String) :
    evaluateTokens satisfies (.lpar :: tokens ++ [.rpar, .and, .atom text]) =
      match feed satisfies [{}, {}] tokens with
      | some [inner, outer] =>
        if inner.awaiting then none
        else some (outer.alternatives || (outer.conjunction && inner.value && satisfies text))
      | _ => none := by
  rw [evaluateTokens, feed_append, feed]
  simp only [feedToken, if_true, Option.bind_some]
  cases feed satisfies [{}, {}] tokens with
  | none => rfl
  | some stack =>
      match stack with
      | [] => rfl
      | [frame] => rfl
      | [inner, outer] =>
          cases waiting : inner.awaiting with
          | true => simp [feed, feedToken, waiting]
          | false => simp [feed, feedToken, waiting, Frame.operand, Frame.value]
      | inner :: outer :: third :: rest =>
          cases waiting : inner.awaiting with
          | true => simp [feed, feedToken, waiting]
          | false => simp [feed, feedToken, waiting, Frame.operand]

/-! ## Texts that stay inside their parenthesis -/

inductive Expr where
  | atom (text : String)
  | and (left right : Expr)
  | or (left right : Expr)
  deriving DecidableEq, Repr

namespace Expr

def eval (satisfies : String → Bool) : Expr → Bool
  | atom text => satisfies text
  | and left right => left.eval satisfies && right.eval satisfies
  | or left right => left.eval satisfies || right.eval satisfies

/-- How loosely the outermost operator binds. -/
def level : Expr → ℕ
  | atom _ => 0
  | and _ _ => 1
  | or _ _ => 2

/-- Parenthesise a printed operand that binds more loosely than its place allows. -/
def enclose (allowed : ℕ) (operand : Expr) (tokens : List Token) : List Token :=
  if operand.level ≤ allowed then tokens else .lpar :: tokens ++ [.rpar]

/-- Printing with no more parentheses than precedence and left association need. -/
def print : Expr → List Token
  | atom text => [.atom text]
  | and left right => left.enclose 1 left.print ++ .and :: right.enclose 0 right.print
  | or left right => left.print ++ .or :: right.enclose 1 right.print

end Expr

variable (satisfies) in
/-- The machine reads the printed expression as the content of a parenthesis. -/
def ReadsAsWhole (expr : Expr) : Prop :=
  ∀ outer : List Frame, ∃ inner : Frame,
    feed satisfies ({} :: outer) expr.print = some (inner :: outer) ∧
      inner.awaiting = false ∧ inner.value = expr.eval satisfies

variable (satisfies) in
/-- The machine reads the tokens as one operand worth `value`. -/
def ReadsAsOperand (tokens : List Token) (value : Bool) : Prop :=
  ∀ (frame : Frame) (outer : List Frame), frame.awaiting = true →
    feed satisfies (frame :: outer) tokens = some (frame.operand value :: outer)

theorem ReadsAsOperand.whole {expr : Expr}
    (operand : ReadsAsOperand satisfies expr.print (expr.eval satisfies)) :
    ReadsAsWhole satisfies expr := by
  intro outer
  exact ⟨_, operand {} outer rfl, rfl, by simp [Frame.operand, Frame.value]⟩

/-- An operand that does not bind tightly enough is read inside parentheses. -/
theorem readsAsOperand_enclose {expr : Expr} {allowed : ℕ} (small : allowed ≤ 1)
    (whole : ReadsAsWhole satisfies expr)
    (operand : expr.level ≤ 1 → ReadsAsOperand satisfies expr.print (expr.eval satisfies)) :
    ReadsAsOperand satisfies (expr.enclose allowed expr.print) (expr.eval satisfies) := by
  intro frame outer waiting
  unfold Expr.enclose
  split_ifs with tight
  · exact operand (Nat.le_trans tight small) frame outer waiting
  · obtain ⟨inner, read, complete, value⟩ := whole (frame :: outer)
    rw [List.cons_append, feed, feedToken, if_pos waiting, Option.bind_some, feed_append, read]
    simp [feed, feedToken, complete, value]

/-- **Adequacy.** A printed expression is read as one whole disjunction, and as
an operand when it binds tightly enough to be one. -/
theorem feed_print (satisfies : String → Bool) (expr : Expr) :
    ReadsAsWhole satisfies expr ∧
      (expr.level ≤ 1 → ReadsAsOperand satisfies expr.print (expr.eval satisfies)) := by
  induction expr with
  | atom text =>
      have operand : ReadsAsOperand satisfies (Expr.atom text).print
          ((Expr.atom text).eval satisfies) := by
        intro frame outer waiting
        simp [Expr.print, Expr.eval, feed, feedToken, waiting]
      exact ⟨operand.whole, fun _ => operand⟩
  | and left right ihLeft ihRight =>
      have readLeft := readsAsOperand_enclose (Nat.le_refl 1) ihLeft.1 ihLeft.2
      have readRight := readsAsOperand_enclose (Nat.zero_le 1) ihRight.1 ihRight.2
      have operand : ReadsAsOperand satisfies (left.and right).print
          ((left.and right).eval satisfies) := by
        intro frame outer waiting
        rw [Expr.print, feed_append, readLeft frame outer waiting, Option.bind_some, feed,
          feedToken, if_neg (by simp [Frame.operand]), Option.bind_some, readRight _ outer rfl]
        simp [Frame.operand, Expr.eval, Bool.and_assoc]
      exact ⟨operand.whole, fun _ => operand⟩
  | or left right ihLeft ihRight =>
      refine ⟨fun outer => ?_, fun tight => absurd tight (by simp [Expr.level])⟩
      obtain ⟨inner, read, complete, value⟩ := ihLeft.1 outer
      have readRight := readsAsOperand_enclose (Nat.le_refl 1) ihRight.1 ihRight.2
        { alternatives := inner.value } outer rfl
      refine ⟨Frame.operand { alternatives := inner.value } (right.eval satisfies), ?_, rfl, ?_⟩
      · rw [Expr.print, feed_append, read, Option.bind_some, feed, feedToken,
          if_neg (by simp [complete]), Option.bind_some, readRight]
      · simp [Frame.operand, Frame.value, Expr.eval, ← value]

end ImposbroSearch.Foundation.Filter
