import Mathlib.Data.List.Basic
import Mathlib.Data.Nat.Digits.Defs

/-!
The tokens of an SQL text, as far as a query with literals needs them.

The lexer is a state machine over the characters, so the tokens of a text that is put together
from pieces are the tokens of the pieces. What it does not follow (comments, quoted identifiers,
parameters, fractions) it marks as `other` and stops there.

* `lexFrom`, `lex`: the tokens of a text, from a state or from the start.
* `lexFrom_append_space`: **the composition rule**, a piece that does not end inside a string is
  followed by a space and the tokens of the rest.
* `lexFrom_flatMap`: the rule for a list of pieces, each after a space.
* `bad_of_isOpen`: a text that ends inside a string has a token at which the lexer gives up.
* `lex_repr`, `lex_toString`, `lex_quoted`: a printed number is one number, a printed integer a
  number with or without a minus sign, and a quoted text without quotes one string.
* `lexFrom_str_cases`: what becomes of an open string.
-/

namespace RewardsDriver.Sql

/-- A token. Words are in lower case, since keywords and names are compared without case. -/
inductive Token where
  | word (w : List Char)
  | num (n : ℕ)
  | str (s : List Char)
  | sym (s : List Char)
  | illegal
  | other
  deriving DecidableEq

/-- What the characters read last may still become. -/
inductive LexState where
  | start
  | word (w : List Char)
  | num (n : ℕ)
  | str (s : List Char)
  | quote (s : List Char)
  | operator (c : Char)
  | dead
  deriving DecidableEq

def isSpace (c : Char) : Bool := c == ' ' || c == '\t' || c == '\n' || c == '\x0c' || c == '\r'

/-- A character that an identifier may start with. -/
def isIdStart (c : Char) : Bool := c.isAlpha || c == '_' || 128 ≤ c.toNat

/-- A character that an identifier may go on with. -/
def isIdChar (c : Char) : Bool := isIdStart c || c.isDigit || c == '$'

def digitValue (c : Char) : ℕ := c.toNat - '0'.toNat

/-- The characters that may be the first of a longer operator. -/
def isOperator (c : Char) : Bool :=
  c == '=' || c == '<' || c == '>' || c == '!' || c == '-' || c == '/' || c == '|'

/-- The symbols of one character. -/
def isSymbol (c : Char) : Bool :=
  c == '.' || c == ',' || c == '(' || c == ')' || c == '*' || c == '+' || c == ';' || c == '%'

/-- The first character of a token. -/
def begin (c : Char) : List Token × LexState :=
  if isSpace c then ([], .start)
  else if isIdStart c then ([], .word [c])
  else if c.isDigit then ([], .num (digitValue c))
  else if c = '\'' then ([], .str [])
  else if isOperator c then ([], .operator c)
  else if isSymbol c then ([.sym [c]], .start)
  else ([.other], .dead)

/-- Two characters that make one operator; a comment and an arrow end what is followed. -/
def pair : Char → Char → Option (List Token × LexState)
  | '=', '=' => some ([.sym ['=']], .start)
  | '<', '=' => some ([.sym ['<', '=']], .start)
  | '<', '>' => some ([.sym ['!', '=']], .start)
  | '<', '<' => some ([.sym ['<', '<']], .start)
  | '>', '=' => some ([.sym ['>', '=']], .start)
  | '>', '>' => some ([.sym ['>', '>']], .start)
  | '!', '=' => some ([.sym ['!', '=']], .start)
  | '|', '|' => some ([.sym ['|', '|']], .start)
  | '-', '-' => some ([.other], .dead)
  | '-', '>' => some ([.other], .dead)
  | '/', '*' => some ([.other], .dead)
  | _, _ => none

/-- An operator of one character; a lone `!` is no token. -/
def lone (c : Char) : Token := if c = '!' then .illegal else .sym [c]

/-- The token that ends here. -/
def LexState.finish : LexState → List Token
  | .start => []
  | .word w => [.word (w.map Char.toLower)]
  | .num n => [.num n]
  | .str _ => [.illegal]
  | .quote s => [.str s]
  | .operator c => [lone c]
  | .dead => []

/-- A number that goes on with a letter is no token, unless it is a fraction, an exponent, a
hexadecimal number or one with digit separators. -/
def afterNumber (c : Char) : Option Token :=
  if c = '.' || c.toLower = 'e' || c.toLower = 'x' || c = '_' then some .other
  else if isIdChar c then some .illegal
  else none

/-- One character. -/
def next : LexState → Char → List Token × LexState
  | .start, c => begin c
  | .word w, c =>
      if isIdChar c then ([], .word (w ++ [c]))
      else ((LexState.word w).finish ++ (begin c).1, (begin c).2)
  | .num n, c =>
      if c.isDigit then ([], .num (10 * n + digitValue c))
      else match afterNumber c with
        | some t => ([t], .dead)
        | none => ((LexState.num n).finish ++ (begin c).1, (begin c).2)
  | .str s, c => if c = '\'' then ([], .quote s) else ([], .str (s ++ [c]))
  | .quote s, c =>
      if c = '\'' then ([], .str (s ++ ['\'']))
      else ((LexState.quote s).finish ++ (begin c).1, (begin c).2)
  | .operator o, c =>
      match pair o c with
      | some r => r
      | none => ((LexState.operator o).finish ++ (begin c).1, (begin c).2)
  | .dead, _ => ([], .dead)

/-- The tokens of a text that starts in a state. -/
def lexFrom : LexState → List Char → List Token
  | l, [] => l.finish
  | l, c :: cs => (next l c).1 ++ lexFrom (next l c).2 cs

/-- The tokens of a text. -/
def lex (cs : List Char) : List Token := lexFrom .start cs

/-- The state after a text. -/
def stateAfter (l : LexState) (cs : List Char) : LexState := cs.foldl (fun l c => (next l c).2) l

/-- Inside a string, or after what is not followed. -/
def LexState.isOpen : LexState → Bool
  | .str _ => true
  | .dead => true
  | _ => false

@[simp] lemma lexFrom_nil (l : LexState) : lexFrom l [] = l.finish := rfl

@[simp] lemma lexFrom_cons (l : LexState) (c : Char) (cs : List Char) :
    lexFrom l (c :: cs) = (next l c).1 ++ lexFrom (next l c).2 cs := rfl

@[simp] lemma stateAfter_nil (l : LexState) : stateAfter l [] = l := rfl

@[simp] lemma stateAfter_cons (l : LexState) (c : Char) (cs : List Char) :
    stateAfter l (c :: cs) = stateAfter (next l c).2 cs := rfl

lemma stateAfter_append (l : LexState) (cs ds : List Char) :
    stateAfter l (cs ++ ds) = stateAfter (stateAfter l cs) ds := List.foldl_append

/-! ### Composition -/

/-- After a text come the tokens of the rest, from the state that the text leads to. -/
lemma lexFrom_append (l : LexState) (cs ds : List Char) :
    ∃ ts, lexFrom l (cs ++ ds) = ts ++ lexFrom (stateAfter l cs) ds := by
  induction cs generalizing l with
  | nil => exact ⟨[], rfl⟩
  | cons c cs ih =>
      obtain ⟨ts, hts⟩ := ih (next l c).2
      exact ⟨(next l c).1 ++ ts, by
        rw [List.cons_append, lexFrom_cons, hts, stateAfter_cons, List.append_assoc]⟩

/-- A space ends every token but an open string. -/
lemma next_space {l : LexState} (h : l.isOpen = false) : next l ' ' = (l.finish, .start) := by
  cases l with
  | start => rfl
  | word w => rfl
  | num n => rfl
  | str s => simp [LexState.isOpen] at h
  | quote s => rfl
  | operator c =>
      have hpair : pair c ' ' = none := by
        unfold pair
        split <;> simp_all
      have hbegin : begin ' ' = ([], .start) := rfl
      simp [next, hpair, hbegin]
  | dead => simp [LexState.isOpen] at h

/-- **The composition rule**: after a text that does not end inside a string, a space and more
text, the tokens are those of the two. -/
theorem lexFrom_append_space {l : LexState} {cs : List Char} (ds : List Char)
    (h : (stateAfter l cs).isOpen = false) :
    lexFrom l (cs ++ ' ' :: ds) = lexFrom l cs ++ lex ds := by
  induction cs generalizing l with
  | nil =>
      rw [stateAfter_nil] at h
      rw [List.nil_append, lexFrom_cons, lexFrom_nil, next_space h]
      rfl
  | cons c cs ih =>
      rw [List.cons_append, lexFrom_cons, lexFrom_cons, ih h, List.append_assoc]

/-- A text that does not end inside a string, when it is read from the start. -/
def Closed (cs : List Char) : Prop := (stateAfter .start cs).isOpen = false

instance (cs : List Char) : Decidable (Closed cs) := inferInstanceAs (Decidable (_ = _))

/-- After a closed text a space leads back to the start. -/
lemma stateAfter_append_space {l : LexState} {cs : List Char} (ds : List Char)
    (h : (stateAfter l cs).isOpen = false) :
    stateAfter l (cs ++ ' ' :: ds) = stateAfter .start ds := by
  rw [stateAfter_append, stateAfter_cons, next_space h]

lemma Closed.append_space {cs ds : List Char} (h : Closed cs) (h' : Closed ds) :
    Closed (cs ++ ' ' :: ds) := by
  rw [Closed, stateAfter_append_space ds h]
  exact h'

lemma lex_append_space {cs : List Char} (ds : List Char) (h : Closed cs) :
    lex (cs ++ ' ' :: ds) = lex cs ++ lex ds := lexFrom_append_space ds h

/-- **Texts put together from pieces**: after a text that does not end inside a string come closed
pieces, each after a space. -/
theorem lexFrom_flatMap {l : LexState} {cs : List Char} {pieces : List (List Char)}
    (hcs : (stateAfter l cs).isOpen = false) (h : ∀ p ∈ pieces, Closed p) :
    lexFrom l (cs ++ pieces.flatMap (' ' :: ·)) = lexFrom l cs ++ pieces.flatMap lex := by
  induction pieces generalizing l cs with
  | nil => simp
  | cons p ps ih =>
      have hp : Closed p := h p (by simp)
      rw [List.flatMap_cons, List.cons_append, lexFrom_append_space _ hcs, List.flatMap_cons, lex,
        ih hp fun q hq => h q (by simp [hq])]
      rfl

/-- The last piece need not be closed. -/
lemma lexFrom_flatMap_last {l : LexState} {cs : List Char} {pieces : List (List Char)}
    (hcs : (stateAfter l cs).isOpen = false) (h : ∀ p ∈ pieces, Closed p) (last : List Char) :
    lexFrom l (cs ++ (pieces ++ [last]).flatMap (' ' :: ·))
      = lexFrom l cs ++ (pieces ++ [last]).flatMap lex := by
  induction pieces generalizing l cs with
  | nil =>
      rw [List.nil_append, List.flatMap_singleton, List.flatMap_singleton,
        lexFrom_append_space _ hcs]
  | cons p ps ih =>
      have hp : Closed p := h p (by simp)
      rw [List.cons_append, List.flatMap_cons, List.cons_append, lexFrom_append_space _ hcs,
        List.flatMap_cons, lex, ih hp fun q hq => h q (by simp [hq])]
      rfl

/-! ### Texts that end open -/

/-- A token at which the lexer gives up on a text. -/
def Token.Bad (t : Token) : Prop := t = .illegal ∨ t = .other

lemma begin_dead {c : Char} (h : (begin c).2 = .dead) : ∃ t ∈ (begin c).1, t.Bad := by
  unfold begin at h ⊢
  split_ifs at h ⊢
  simp_all [Token.Bad]

lemma pair_dead {o c : Char} {ts : List Token} (h : pair o c = some (ts, .dead)) :
    ∃ t ∈ ts, t.Bad := by
  unfold pair at h
  split at h <;> simp_all only [Option.some.injEq, Prod.mk.injEq, reduceCtorEq, and_false,
    and_true] <;> exact ⟨.other, by simp [← h], .inr rfl⟩

/-- What is not followed any more has left a bad token. -/
lemma next_dead {l : LexState} {c : Char} (h : (next l c).2 = .dead) :
    l = .dead ∨ ∃ t ∈ (next l c).1, t.Bad := by
  cases l with
  | start => exact .inr (begin_dead h)
  | word w =>
      right
      rw [next] at h ⊢
      split at h
      · simp at h
      · obtain ⟨t, ht, hbad⟩ := begin_dead h
        rw [if_neg ‹_›]
        exact ⟨t, List.mem_append_right _ ht, hbad⟩
  | num n =>
      right
      rw [next] at h ⊢
      split at h
      · simp at h
      · rw [if_neg ‹_›]
        cases hn : afterNumber c with
        | none =>
            rw [hn] at h
            obtain ⟨t, ht, hbad⟩ := begin_dead h
            exact ⟨t, List.mem_append_right _ ht, hbad⟩
        | some t =>
            refine ⟨t, by simp, ?_⟩
            unfold afterNumber at hn
            split_ifs at hn <;> simp_all [Token.Bad]
  | str s =>
      rw [next] at h
      split at h <;> simp at h
  | quote s =>
      right
      rw [next] at h ⊢
      split at h
      · simp at h
      · obtain ⟨t, ht, hbad⟩ := begin_dead h
        rw [if_neg ‹_›]
        exact ⟨t, List.mem_append_right _ ht, hbad⟩
  | operator o =>
      right
      rw [next] at h ⊢
      cases hp : pair o c with
      | none =>
          rw [hp] at h
          obtain ⟨t, ht, hbad⟩ := begin_dead h
          exact ⟨t, List.mem_append_right _ ht, hbad⟩
      | some r =>
          rw [hp] at h
          obtain ⟨ts, l⟩ := r
          exact pair_dead (hp.trans (by rw [show l = .dead from h]))
  | dead => exact .inl rfl

/-- A text that ends inside a string, or where it is not followed any more, has a bad token. -/
lemma bad_of_isOpen {l : LexState} {cs : List Char} (h : (stateAfter l cs).isOpen = true) :
    l = .dead ∨ ∃ t ∈ lexFrom l cs, t.Bad := by
  induction cs generalizing l with
  | nil =>
      cases l with
      | str s => exact .inr ⟨.illegal, by simp [LexState.finish], .inl rfl⟩
      | dead => exact .inl rfl
      | _ => simp [LexState.isOpen] at h
  | cons c cs ih =>
      obtain hdead | ⟨t, ht, hbad⟩ := ih h
      · refine (next_dead hdead).imp_right fun ⟨t, ht, hbad⟩ => ?_
        exact ⟨t, List.mem_append_left _ ht, hbad⟩
      · exact .inr ⟨t, List.mem_append_right _ ht, hbad⟩

/-! ### Literals -/

/-- Digits read after a number extend it. -/
lemma lexFrom_num_digits {cs : List Char} (h : ∀ c ∈ cs, c.isDigit = true) (n : ℕ) :
    lexFrom (.num n) cs = [.num (Nat.ofDigitChars 10 cs n)] ∧
      stateAfter (.num n) cs = .num (Nat.ofDigitChars 10 cs n) := by
  induction cs generalizing n with
  | nil => simp [lexFrom, LexState.finish]
  | cons c cs ih =>
      have hc : next (.num n) c = ([], .num (10 * n + digitValue c)) := by simp [next, h c]
      rw [lexFrom, stateAfter_cons, hc, Nat.ofDigitChars_cons]
      exact ih (fun d hd => h d (by simp [hd])) _

lemma begin_digit {c : Char} (h : c.isDigit = true) : begin c = ([], .num (digitValue c)) := by
  have hval : 48 ≤ c.toNat ∧ c.toNat ≤ 57 := by simpa [Char.isDigit, UInt32.le_iff_toNat_le] using h
  have hne : ∀ d : Char, d.toNat < 48 ∨ 57 < d.toNat → c ≠ d := by
    rintro d hd rfl
    omega
  have hspace : isSpace c = false := by
    simp [isSpace, hne ' ' (by decide), hne '\t' (by decide), hne '\n' (by decide),
      hne '\x0c' (by decide), hne '\r' (by decide)]
  have hid : isIdStart c = false := by
    have halpha : c.isAlpha = false := by
      change (decide ('A'.val ≤ c.val ∧ c.val ≤ 'Z'.val)
        || (decide ('a'.val ≤ c.val) && decide (c.val ≤ 'z'.val))) = false
      simp only [Bool.or_eq_false_iff, Bool.and_eq_false_iff, decide_eq_false_iff_not,
        UInt32.le_iff_toNat_le]
      have hval' : 48 ≤ c.val.toNat ∧ c.val.toNat ≤ 57 := hval
      have hbounds : 'A'.val.toNat = 65 ∧ 'Z'.val.toNat = 90 ∧ 'a'.val.toNat = 97 := by decide
      omega
    simp only [isIdStart, halpha, hne '_' (by decide), Bool.false_or, Bool.or_eq_false_iff,
      beq_eq_false_iff_ne, ne_eq, not_false_eq_true, true_and, decide_eq_false_iff_not]
    omega
  simp [begin, hspace, hid, h]

/-- A printed number is one number. -/
lemma lex_digits (n : ℕ) : lex (Nat.toDigits 10 n) = [.num n] ∧ Closed (Nat.toDigits 10 n) := by
  have hdigit : ∀ c ∈ Nat.toDigits 10 n, c.isDigit = true := fun c hc =>
    Nat.isDigit_of_mem_toDigits (b := 10) (by decide) (by decide) hc
  have hvalue : Nat.ofDigitChars 10 (Nat.toDigits 10 n) 0 = n :=
    Nat.ofDigitChars_toDigits (by decide) (by decide)
  cases hcs : Nat.toDigits 10 n with
  | nil => exact absurd hcs Nat.toDigits_ne_nil
  | cons c cs =>
      rw [hcs] at hdigit hvalue
      rw [Nat.ofDigitChars_cons, Nat.mul_zero, Nat.zero_add] at hvalue
      have hcs' : ∀ d ∈ cs, d.isDigit = true := fun d hd => hdigit d (by simp [hd])
      have hrest := lexFrom_num_digits hcs' (digitValue c)
      have hbegin := begin_digit (hdigit c (by simp))
      rw [lex, lexFrom, Closed, stateAfter_cons, next, hbegin, hrest.1, hrest.2, digitValue,
        hvalue]
      exact ⟨rfl, rfl⟩

lemma lex_repr (n : ℕ) : lex n.repr.toList = [.num n] := by
  rw [Nat.toList_repr, (lex_digits n).1]

lemma closed_repr (n : ℕ) : Closed n.repr.toList := by
  rw [Nat.toList_repr]
  exact (lex_digits n).2

/-- A printed number has a first digit, and the others extend it. -/
lemma toDigits_cons (n : ℕ) : ∃ c cs, Nat.toDigits 10 n = c :: cs ∧ c.isDigit = true ∧
    ∀ m, stateAfter (.num m) cs = .num (Nat.ofDigitChars 10 cs m) := by
  have hdigit : ∀ c ∈ Nat.toDigits 10 n, c.isDigit = true := fun c hc =>
    Nat.isDigit_of_mem_toDigits (b := 10) (by decide) (by decide) hc
  cases hcs : Nat.toDigits 10 n with
  | nil => exact absurd hcs Nat.toDigits_ne_nil
  | cons c cs =>
      rw [hcs] at hdigit
      refine ⟨c, cs, rfl, hdigit c (by simp), fun m => ?_⟩
      exact (lexFrom_num_digits (fun d hd => hdigit d (by simp [hd])) m).2

/-- A minus sign before a digit stands alone. -/
lemma pair_minus_digit {c : Char} (hc : c.isDigit = true) : pair '-' c = none := by
  have hne : c ≠ '-' ∧ c ≠ '>' := by
    constructor <;>
      · rintro rfl
        revert hc
        decide
  unfold pair
  split <;> simp_all

/-- The tokens of a printed integer. -/
def intTokens (z : ℤ) : List Token :=
  if 0 ≤ z then [.num z.toNat] else [.sym ['-'], .num (-z).toNat]

lemma lexFrom_minus_digits (n : ℕ) :
    lex ('-' :: Nat.toDigits 10 n) = [.sym ['-'], .num n] ∧ Closed ('-' :: Nat.toDigits 10 n) := by
  have hdigit : ∀ c ∈ Nat.toDigits 10 n, c.isDigit = true := fun c hc =>
    Nat.isDigit_of_mem_toDigits (b := 10) (by decide) (by decide) hc
  have hdigits := lex_digits n
  have hminus : next .start '-' = ([], .operator '-') := rfl
  cases hcs : Nat.toDigits 10 n with
  | nil => exact absurd hcs Nat.toDigits_ne_nil
  | cons c cs =>
      rw [hcs] at hdigit hdigits
      have hc := hdigit c (by simp)
      have hnext : next (.operator '-') c = ([.sym ['-']] ++ (begin c).1, (begin c).2) := by
        simp [next, pair_minus_digit hc, LexState.finish, lone]
      rw [lex, lexFrom, next] at hdigits
      rw [Closed, stateAfter_cons, next] at hdigits
      rw [lex, lexFrom, hminus, lexFrom, hnext, Closed, stateAfter_cons, hminus, stateAfter_cons,
        hnext]
      refine ⟨?_, hdigits.2⟩
      rw [List.nil_append, List.append_assoc, hdigits.1]
      rfl

/-- A printed integer is a number, with a minus sign before it if it is negative. -/
lemma lex_toString (z : ℤ) :
    lex (toString z).toList = intTokens z ∧ Closed (toString z).toList := by
  cases z with
  | ofNat n =>
      have h : toString (Int.ofNat n) = n.repr := rfl
      rw [h]
      exact ⟨by rw [lex_repr, intTokens, if_pos (by simp)]; rfl, closed_repr n⟩
  | negSucc n =>
      have h : toString (Int.negSucc n) = "-" ++ (n + 1).repr := rfl
      have hlist : ("-" ++ (n + 1).repr).toList = '-' :: Nat.toDigits 10 (n + 1) := by
        rw [String.toList_append, Nat.toList_repr]
        rfl
      rw [h, hlist, intTokens, if_neg (by omega)]
      exact lexFrom_minus_digits (n + 1)

/-- A printed integer may still go on. -/
lemma stateAfter_toString (z : ℤ) : ∃ n, stateAfter .start (toString z).toList = .num n := by
  cases z with
  | ofNat n =>
      have h : toString (Int.ofNat n) = n.repr := rfl
      rw [h, Nat.toList_repr]
      obtain ⟨c, cs, hcs, hc, hrest⟩ := toDigits_cons n
      rw [hcs, stateAfter_cons, next, begin_digit hc]
      exact ⟨_, hrest _⟩
  | negSucc n =>
      have h : toString (Int.negSucc n) = "-" ++ (n + 1).repr := rfl
      have hminus : next .start '-' = ([], .operator '-') := rfl
      obtain ⟨c, cs, hcs, hc, hrest⟩ := toDigits_cons (n + 1)
      rw [h, String.toList_append, Nat.toList_repr, hcs]
      change ∃ m, stateAfter (next .start '-').2 (c :: cs) = .num m
      rw [hminus, stateAfter_cons, next, pair_minus_digit hc]
      dsimp only
      rw [begin_digit hc]
      exact ⟨_, hrest _⟩

/-- A text without quotes, inside a string. -/
lemma lexFrom_str {cs : List Char} (h : '\'' ∉ cs) (s : List Char) :
    lexFrom (.str s) (cs ++ ['\'']) = [.str (s ++ cs)] ∧
      stateAfter (.str s) (cs ++ ['\'']) = .quote (s ++ cs) := by
  induction cs generalizing s with
  | nil => simp [lexFrom, next, LexState.finish]
  | cons c cs ih =>
      rw [List.mem_cons, not_or] at h
      have hc : next (.str s) c = ([], .str (s ++ [c])) := by simp [next, Ne.symm h.1]
      have hrest := ih h.2 (s ++ [c])
      rw [List.cons_append, lexFrom, stateAfter_cons, hc, hrest.1, hrest.2]
      simp

/-- A text without quotes leaves an open string open. -/
lemma lexFrom_str_open {cs : List Char} (h : '\'' ∉ cs) (s : List Char) :
    lexFrom (.str s) cs = [.illegal] := by
  induction cs generalizing s with
  | nil => rfl
  | cons c cs ih =>
      rw [List.mem_cons, not_or] at h
      have hc : next (.str s) c = ([], .str (s ++ [c])) := by simp [next, Ne.symm h.1]
      rw [lexFrom, hc, ih h.2]
      rfl

/-- **An open string** is never closed, or it ends in a string that is shorter than the text; it is
shorter by the closing quote alone only if there is no other quote. -/
lemma lexFrom_str_cases : ∀ cs s : List Char, lexFrom (.str s) cs = [.illegal] ∨
    ∃ r ts, lexFrom (.str s) cs = .str r :: ts ∧ r.length + 1 ≤ s.length + cs.length ∧
      (r.length + 1 = s.length + cs.length → cs.count '\'' = 1)
  | [], _ => .inl rfl
  | [c], s => by
      by_cases hc : c = '\''
      · subst hc
        exact .inr ⟨s, [], by simp [next, LexState.finish], by simp, by simp⟩
      · exact .inl (by simp [next, hc, LexState.finish])
  | c :: d :: cs, s => by
      by_cases hc : c = '\''
      · subst hc
        by_cases hd : d = '\''
        · subst hd
          -- two quotes are one in the string
          have hnext : lexFrom (.str s) ('\'' :: '\'' :: cs) = lexFrom (.str (s ++ ['\''])) cs := by
            simp [next]
          rw [hnext]
          refine (lexFrom_str_cases cs (s ++ ['\''])).imp_right ?_
          rintro ⟨r, ts, hts, hle, -⟩
          rw [List.length_append, List.length_singleton] at hle
          simp only [List.length_cons]
          exact ⟨r, ts, hts, by omega, fun _ => by omega⟩
        · refine .inr ⟨s, _, by simp [next, hd, LexState.finish]; rfl, ?_, fun heq => ?_⟩
          · simp only [List.length_cons]
            omega
          · simp only [List.length_cons] at heq
            omega
      · have hnext : lexFrom (.str s) (c :: d :: cs) = lexFrom (.str (s ++ [c])) (d :: cs) := by
          simp [next, hc]
        rw [hnext]
        refine (lexFrom_str_cases (d :: cs) (s ++ [c])).imp_right ?_
        rintro ⟨r, ts, hts, hle, hcount⟩
        rw [List.length_append, List.length_singleton] at hle hcount
        rw [List.length_cons, List.count_cons_of_ne hc]
        exact ⟨r, ts, hts, by omega, fun heq => hcount (by omega)⟩

/-- A quoted text without quotes is one string. -/
lemma lex_quoted {cs : List Char} (h : '\'' ∉ cs) :
    lex ('\'' :: (cs ++ ['\''])) = [.str cs] ∧ Closed ('\'' :: (cs ++ ['\''])) := by
  have hrest := lexFrom_str h []
  have hstart : next .start '\'' = ([], .str []) := rfl
  rw [lex, lexFrom, Closed, stateAfter_cons, hstart, hrest.1, hrest.2]
  exact ⟨rfl, rfl⟩

end RewardsDriver.Sql
