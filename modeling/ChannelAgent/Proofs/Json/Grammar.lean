import Mathlib.Data.List.Forall2
import ChannelAgent.Proofs.Json.Integers

set_option autoImplicit false

namespace ChannelAgent.Json

def Blank (text : List Char) : Prop := ∀ c ∈ text, c = ' ' ∨ c = '\t' ∨ c = '\n' ∨ c = '\r'

inductive CodeUnit : Nat → List Char → Prop
  | digits {a b c d : Char} {w x y z : Nat} (first : hexValue? (some a) = some w)
      (second : hexValue? (some b) = some x) (third : hexValue? (some c) = some y)
      (fourth : hexValue? (some d) = some z) :
      CodeUnit (((w * 16 + x) * 16 + y) * 16 + z) [a, b, c, d]

/-- A character in a string: as it is, behind a backslash, as a code unit or as a pair of
surrogates. -/
inductive CharText : Char → List Char → Prop
  | plain {c : Char} (noQuote : c ≠ '"') (noBackslash : c ≠ '\\') (visible : 0x20 ≤ c.toNat) :
      CharText c [c]
  | escape {c e : Char} (escaped : escaped? e = some c) : CharText c ['\\', e]
  | unit {n : Nat} {digits : List Char} (unit : CodeUnit n digits) (noLead : isLeading n = false)
      (noTrail : isTrailing n = false) : CharText (Char.ofNat n) ('\\' :: 'u' :: digits)
  | pair {m n : Nat} {digits digits' : List Char} (lead : CodeUnit m digits)
      (trail : CodeUnit n digits') (leads : isLeading m = true) (trails : isTrailing n = true) :
      CharText (paired m n) ('\\' :: 'u' :: digits ++ '\\' :: 'u' :: digits')

inductive StringText (s : String) : List Char → Prop
  | quoted {texts : List (List Char)} (spelled : List.Forall₂ CharText s.toList texts) :
      StringText s ('"' :: texts.flatten ++ ['"'])

def DigitText (digits : List Nat) (text : List Char) : Prop :=
  text ≠ [] ∧ (∀ c ∈ text, '0' ≤ c ∧ c ≤ '9') ∧ digits = text.map fun c => c.toNat - 48

inductive FractionText : Option (List Nat) → List Char → Prop
  | absent : FractionText none []
  | present {digits : List Nat} {text : List Char} (spelled : DigitText digits text) :
      FractionText (some digits) ('.' :: text)

inductive ExponentText : Option (Bool × List Nat) → List Char → Prop
  | absent : ExponentText none []
  | bare {mark : Char} {digits : List Nat} {text : List Char} (marks : mark = 'e' ∨ mark = 'E')
      (spelled : DigitText digits text) : ExponentText (some (false, digits)) (mark :: text)
  | plus {mark : Char} {digits : List Nat} {text : List Char} (marks : mark = 'e' ∨ mark = 'E')
      (spelled : DigitText digits text) : ExponentText (some (false, digits)) (mark :: '+' :: text)
  | minus {mark : Char} {digits : List Nat} {text : List Char} (marks : mark = 'e' ∨ mark = 'E')
      (spelled : DigitText digits text) : ExponentText (some (true, digits)) (mark :: '-' :: text)

/-- A number literal behind its sign. A zero in front stands alone. -/
inductive MagnitudeText (l : Literal) : List Char → Prop
  | spelled {whole fraction exponent : List Char} (digits : DigitText l.whole whole)
      (alone : l.whole.head? = some 0 → l.whole.length = 1)
      (point : FractionText l.fraction fraction) (power : ExponentText l.exponent exponent) :
      MagnitudeText l (whole ++ (fraction ++ exponent))

inductive NumberText (l : Literal) : List Char → Prop
  | positive {text : List Char} (sign : l.negative = false) (magnitude : MagnitudeText l text) :
      NumberText l text
  | negative {text : List Char} (sign : l.negative = true) (magnitude : MagnitudeText l text) :
      NumberText l ('-' :: text)

/-- An element of a list: its value, its text and the white space around it. -/
structure Element where
  value : Value
  text : List Char
  before : List Char
  after : List Char

namespace Element

def whole (e : Element) : List Char := e.before ++ e.text ++ e.after

structure Spaced (e : Element) : Prop where
  before : Blank e.before
  after : Blank e.after

end Element

/-- A member of an object: the same with its name, and with white space around the colon. -/
structure Member extends Element where
  name : String
  nameText : List Char
  beforeColon : List Char
  afterColon : List Char

namespace Member

def whole (m : Member) : List Char :=
  m.before ++ m.nameText ++ m.beforeColon ++ ':' :: m.afterColon ++ m.text ++ m.after

def pair (m : Member) : String × Value := (m.name, m.value)

structure Spaced (m : Member) : Prop extends m.toElement.Spaced where
  beforeColon : Blank m.beforeColon
  afterColon : Blank m.afterColon
  named : StringText m.name m.nameText

end Member

/-- The texts of values in which at most `depth` containers stand inside each other, and all numbers
are in range. -/
inductive ValueText : (depth : Nat) → Value → List Char → Prop
  | null {depth : Nat} : ValueText depth .null ['n', 'u', 'l', 'l']
  | true {depth : Nat} : ValueText depth (.bool true) ['t', 'r', 'u', 'e']
  | false {depth : Nat} : ValueText depth (.bool false) ['f', 'a', 'l', 's', 'e']
  | number {depth : Nat} {l : Literal} {n : Number} {text : List Char} (literal : NumberText l text)
      (range : l.number? = some n) : ValueText depth (.number n) text
  | string {depth : Nat} {s : String} {text : List Char} (quoted : StringText s text) :
      ValueText depth (.string s) text
  | emptyList {depth : Nat} {blank : List Char} (space : Blank blank) :
      ValueText (depth + 1) (.list []) ('[' :: blank ++ [']'])
  | list {depth : Nat} {elements : List Element} (some : elements ≠ [])
      (spaced : ∀ e ∈ elements, e.Spaced) (values : ∀ e ∈ elements, ValueText depth e.value e.text) :
      ValueText (depth + 1) (.list (elements.map Element.value))
        ('[' :: commaSeparated (elements.map Element.whole) ++ [']'])
  | emptyObject {depth : Nat} {blank : List Char} (space : Blank blank) :
      ValueText (depth + 1) (.object []) ('\x7b' :: blank ++ ['\x7d'])
  | object {depth : Nat} {members : List Member} (some : members ≠ [])
      (spaced : ∀ m ∈ members, m.Spaced) (values : ∀ m ∈ members, ValueText depth m.value m.text) :
      ValueText (depth + 1) (.object (members.map Member.pair))
        ('\x7b' :: commaSeparated (members.map Member.whole) ++ ['\x7d'])

/-- A whole text denotes a value: it spells it within the limits, with white space around it. -/
inductive Denotes (v : Value) (text : String) : Prop
  | spelled {before middle after : List Char} (whole : text.toList = before ++ middle ++ after)
      (leading : Blank before) (trailing : Blank after) (value : ValueText depthLimit v middle)

section

variable {clean : Bool} {acc : List Char} {rest : List Symbol}

theorem CodeUnit.enough {n : Nat} {digits : List Char} (unit : CodeUnit n digits) :
    4 ≤ (digits.map some ++ rest).length := by
  cases unit
  simp

/-- All digits but the last one lead to the last one. -/
theorem CodeUnit.leads {n : Nat} {digits : List Char} (unit : CodeUnit n digits)
    (lead? : Option Nat) (clean : Bool) (acc : List Char) (rest : List Symbol) :
    ∃ value last d, hexValue? last = some d ∧ n = value * 16 + d ∧
      stringBody (.unit lead? 3 0) clean acc (digits.map some ++ rest) =
        stringBody (.unit lead? 0 value) clean acc (last :: rest) := by
  cases unit with
  | @digits a b c d w x y z first second third fourth =>
    refine ⟨(w * 16 + x) * 16 + y, some d, z, fourth, rfl, ?_⟩
    simp only [List.map_cons, List.map_nil, List.cons_append, List.nil_append]
    rw [stringBody_digit first, stringBody_digit second, stringBody_digit third, Nat.zero_mul,
      Nat.zero_add]

theorem stringBody_pair {lead n : Nat} {digits : List Char} (unit : CodeUnit n digits)
    (trails : isTrailing n = true) :
    stringBody (.partner lead) clean acc (some '\\' :: some 'u' :: (digits.map some ++ rest)) =
      stringBody .plain clean (paired lead n :: acc) rest := by
  obtain ⟨value, last, d, digit, rfl, leads⟩ := unit.leads (some lead) clean acc rest
  have enough : Utf8.hasBytes 4 (digits.map some ++ rest) = true := hasBytes_of_le unit.enough
  rw [stringBody, if_pos rfl, stringBody, if_pos rfl, if_pos enough, leads]
  simp only [stringBody, digit, trails, ↓reduceIte]

/-- A character is read from every text that it has in a string. -/
theorem CharText.read {c : Char} {text : List Char} (spelled : CharText c text) :
    stringBody .plain clean acc (text.map some ++ rest) = stringBody .plain clean (c :: acc) rest := by
  cases spelled with
  | plain noQuote noBackslash visible => exact stringBody_plain noQuote noBackslash visible
  | escape escaped => exact stringBody_escape escaped
  | @unit n digits unit noLead noTrail =>
    obtain ⟨value, last, d, digit, rfl, leads⟩ := unit.leads none clean acc rest
    simp only [List.map_cons, List.cons_append]
    rw [stringBody_backslash, stringBody_unit unit.enough, leads,
      stringBody_lastDigit digit noLead noTrail]
  | @pair m n digits digits' lead trail isLead isTrail =>
    simp only [List.map_cons, List.map_append, List.cons_append, List.append_assoc]
    obtain ⟨value, last, d, digit, rfl, leads⟩ := lead.leads none clean acc
      (some '\\' :: some 'u' :: (digits'.map some ++ rest))
    have noTrail : isTrailing (value * 16 + d) = false := by
      simp only [isLeading, isTrailing, Bool.and_eq_true, decide_eq_true_eq, Bool.and_eq_false_iff,
        decide_eq_false_iff_not] at isLead ⊢
      omega
    rw [stringBody_backslash, stringBody_unit lead.enough, leads, ← stringBody_pair trail isTrail]
    simp only [stringBody, digit, noTrail, isLead, Bool.false_eq_true, ↓reduceIte]

theorem stringBody_texts {chars : List Char} {texts : List (List Char)}
    (spelled : List.Forall₂ CharText chars texts) :
    stringBody .plain true acc (texts.flatten.map some ++ some '"' :: rest) =
      .ok (String.ofList (acc.reverse ++ chars), rest) := by
  induction spelled generalizing acc with
  | nil => simp [stringBody]
  | cons here _ ih =>
    rw [List.flatten_cons, List.map_append, List.append_assoc, here.read, ih]
    simp

theorem StringText.read {s : String} {text : List Char} (quoted : StringText s text)
    (rest : List Symbol) :
    ∃ body, text.map some ++ rest = some '"' :: body ∧ stringToken body = .ok (s, rest) := by
  cases quoted with
  | @quoted texts spelled =>
    refine ⟨texts.flatten.map some ++ some '"' :: rest, by simp, ?_⟩
    rw [stringToken, stringBody_texts spelled]
    simp

end

section

variable {ended : Fault} {rest : List Symbol}

theorem DigitText.read {digits : List Nat} {text : List Char} (spelled : DigitText digits text)
    (ends : EndsBefore [] rest) : someDigits ended (text.map some ++ rest) = .ok (digits, rest) := by
  obtain ⟨nonempty, range, rfl⟩ := spelled
  have all : ∀ x ∈ text.map some, isDigit x = true := by
    intro x found
    obtain ⟨c, listed, rfl⟩ := List.mem_map.1 found
    exact decide_eq_true (range c listed)
  have values : (text.map some).map digitValue = text.map fun c => c.toNat - 48 := by
    rw [List.map_map]
    exact List.map_congr_left fun c listed => if_pos (range c listed)
  have stops : rest.takeWhile isDigit = [] ∧ rest.dropWhile isDigit = rest := by
    cases rest with
    | nil => exact ⟨rfl, rfl⟩
    | cons x rest =>
      have stop := (endsBefore_cons.1 ends).1
      exact ⟨List.takeWhile_cons_of_neg (by simp [stop]),
        List.dropWhile_cons_of_neg (by simp [stop])⟩
  have taken : takeDigits (text.map some ++ rest) = (text.map fun c => c.toNat - 48, rest) := by
    rw [takeDigits, List.takeWhile_append_of_pos all, List.dropWhile_append_of_pos all, stops.1,
      stops.2, List.append_nil, values]
  cases text with
  | nil => exact absurd rfl nonempty
  | cons c text =>
    rw [← taken, List.map_cons, List.cons_append, someDigits,
      if_pos (all (some c) (List.mem_cons_self ..))]

theorem FractionText.read {fraction : Option (List Nat)} {text : List Char}
    (spelled : FractionText fraction text) (ends : EndsBefore ['.'] rest) :
    fractionPart ended (text.map some ++ rest) = .ok (fraction, rest) := by
  cases spelled with
  | absent =>
    rw [List.map_nil, List.nil_append]
    unfold fractionPart
    split
    · exact absurd (List.mem_singleton_self _) (endsBefore_cons.1 ends).2
    · rfl
  | present digits =>
    exact bind_eq_ok.2 ⟨_, digits.read (ends.mono (List.nil_subset _)), rfl⟩

theorem FractionText.ends {fraction : Option (List Nat)} {text : List Char}
    (spelled : FractionText fraction text) (ends : EndsBefore [] rest) :
    EndsBefore [] (text.map some ++ rest) := by
  cases spelled with
  | absent => exact ends
  | present => exact endsBefore_cons.2 ⟨rfl, nofun⟩

/-- No digit is taken for a sign. -/
theorem exponentSign_of_digit {c : Symbol} {s : List Symbol} (digit : isDigit c = true) :
    exponentSign (c :: s) = (false, c :: s) := by
  unfold exponentSign
  split
  · rename_i same
    obtain ⟨rfl, -⟩ := List.cons.inj same
    cases digit
  · rename_i same
    obtain ⟨rfl, -⟩ := List.cons.inj same
    cases digit
  · rfl

theorem ExponentText.read {exponent : Option (Bool × List Nat)} {text : List Char}
    (spelled : ExponentText exponent text) (ends : EndsBefore ['e', 'E'] rest) :
    exponentPart ended (text.map some ++ rest) = .ok (exponent, rest) := by
  have stops : EndsBefore [] rest := ends.mono (List.nil_subset _)
  cases spelled with
  | absent => exact exponentPart_of_not_marks ends.not_marks
  | @bare mark digits text marks spelled =>
    have unsigned : exponentSign (text.map some ++ rest) = (false, text.map some ++ rest) := by
      obtain ⟨nonempty, range, -⟩ := spelled
      cases text with
      | nil => exact absurd rfl nonempty
      | cons c text => exact exponentSign_of_digit (decide_eq_true (range c List.mem_cons_self))
    rw [List.map_cons, List.cons_append, exponentPart_of_marks marks, unsigned, spelled.read stops]
    rfl
  | plus marks spelled =>
    rw [List.map_cons, List.cons_append, exponentPart_of_marks marks]
    exact congrArg (Except.map _) (spelled.read stops)
  | minus marks spelled =>
    rw [List.map_cons, List.cons_append, exponentPart_of_marks marks]
    exact congrArg (Except.map _) (spelled.read stops)

theorem ExponentText.ends {exponent : Option (Bool × List Nat)} {text : List Char}
    (spelled : ExponentText exponent text) (ends : EndsBefore ['.'] rest) :
    EndsBefore ['.'] (text.map some ++ rest) := by
  have marked {mark : Char} {s : List Symbol} (marks : mark = 'e' ∨ mark = 'E') :
      EndsBefore ['.'] (some mark :: s) := by
    rcases marks with rfl | rfl <;> exact endsBefore_cons.2 (by decide)
  cases spelled with
  | absent => exact ends
  | bare marks | plus marks | minus marks => exact marked marks

theorem MagnitudeText.read {l : Literal} {text : List Char} (spelled : MagnitudeText l text)
    (ended : Fault) (ends : Ends rest) : literal ended l.negative (text.map some ++ rest) = .ok (l, rest) := by
  cases spelled with
  | @spelled whole fraction exponent digits alone point power =>
    rw [List.map_append, List.map_append, List.append_assoc, List.append_assoc]
    have behindPower : EndsBefore ['e', 'E'] rest := ends.mono (by decide)
    have behindPoint : EndsBefore ['.'] (exponent.map some ++ rest) :=
      power.ends (ends.mono (by decide))
    have behindDigits := point.ends (behindPoint.mono (List.nil_subset _))
    have sound : ¬ (l.whole.length ≠ 1 ∧ l.whole.head? = some 0) := fun ⟨many, zero⟩ =>
      many (alone zero)
    have wholes : wholePart ended (whole.map some ++
        (fraction.map some ++ (exponent.map some ++ rest))) =
          .ok (l.whole, fraction.map some ++ (exponent.map some ++ rest)) :=
      bind_eq_ok.2 ⟨_, digits.read behindDigits, if_neg sound⟩
    exact bind_eq_ok.2 ⟨_, wholes, bind_eq_ok.2 ⟨_, point.read behindPoint,
      bind_eq_ok.2 ⟨_, power.read behindPower, rfl⟩⟩⟩

theorem isSpace_of_isDigit {c : Symbol} (digit : isDigit c = true) : isSpace c = false := by
  refine Bool.eq_false_iff.2 fun space => ?_
  simp only [isSpace, Bool.or_eq_true, decide_eq_true_eq] at space
  rcases space with ((rfl | rfl) | rfl) | rfl <;> cases digit

theorem NumberText.takes {depth : Nat} {l : Literal} {n : Number} {text : List Char}
    (spelled : NumberText l text) (range : l.number? = some n) :
    Takes (value depth) (text.map some) (.number n) := by
  intro rest ends
  cases spelled with
  | positive sign magnitude =>
    have read := magnitude.read .truncated ends
    rw [sign] at read
    have found := numberToken_ok.2 ⟨l, read, range⟩
    obtain ⟨-, c, taken, whole, first, -⟩ := numberToken_extent found
    have visible : skipSpace (text.map some ++ rest) = text.map some ++ rest := by
      rw [whole]
      exact skipSpace_cons_of_visible (isSpace_of_isDigit first)
    exact value_number_iff.2 (.inr (visible.symm ▸ found))
  | negative sign magnitude =>
    have read := magnitude.read .truncated ends
    rw [sign] at read
    exact value_number_iff.2 (.inl ⟨_, rfl, numberToken_ok.2 ⟨l, read, range⟩⟩)

end

section

variable {α : Type} {item : Reader α} {first : Bool} {depth : Nat} {blank : List Char}
  {s rest : List Symbol}

theorem Blank.isSpace (space : Blank blank) : ∀ x ∈ blank.map some, Json.isSpace x = true := by
  intro x found
  obtain ⟨c, listed, rfl⟩ := List.mem_map.1 found
  simpa [Json.isSpace, or_assoc] using space c listed

theorem Blank.ends (space : Blank blank) : Ends (blank.map some) := by
  cases blank with
  | nil => exact endsBefore_nil
  | cons c blank => exact ends_of_isSpace (space.isSpace _ List.mem_cons_self)

theorem Blank.skip (space : Blank blank) (s : List Symbol) :
    skipSpace (blank.map some ++ s) = skipSpace s :=
  List.dropWhile_append_of_pos space.isSpace

theorem Blank.value (space : Blank blank) :
    Json.value depth (blank.map some ++ s) = Json.value depth s := by
  rw [← value_skipSpace, space.skip, value_skipSpace]

theorem Blank.elements (space : Blank blank) {xs : List α} (read : ElementsRead item first s xs rest)
    (later : first = false) : ElementsRead item first (blank.map some ++ s) xs rest := by
  subst later
  cases read with
  | closed close => exact .closed ((space.skip s).trans close)
  | element next read later =>
    refine .element ?_ read later
    simpa only [nextElement, space.skip] using next

theorem Blank.members (space : Blank blank) {ms : List (String × α)}
    (read : MembersRead item first s ms rest) (later : first = false) :
    MembersRead item first (blank.map some ++ s) ms rest := by
  subst later
  cases read with
  | closed close => exact .closed ((space.skip s).trans close)
  | member named joined read later =>
    refine .member ?_ joined read later
    simpa only [nextName, space.skip] using named

theorem commaSeparated_cons (x : List Char) (xs : List (List Char)) :
    commaSeparated (x :: xs) = x ++ xs.flatMap (List.cons ',') := by
  induction xs generalizing x with
  | nil => simp [commaSeparated]
  | cons y ys ih =>
    change x ++ ',' :: commaSeparated (y :: ys) = _
    rw [ih y]
    simp

/-- A value starts with a symbol that closes no list. -/
theorem value_starts {v : Value} (read : Json.value depth s = .ok (v, rest)) :
    ∃ c t, skipSpace s = c :: t ∧ c ≠ some ']' := by
  cases value_read read with
  | scalar visible _ _ read =>
    refine ⟨_, _, visible, ?_⟩
    rintro ⟨⟩
    cases read
  | list visible | object visible => exact ⟨_, _, visible, nofun⟩

/-- An element stands in front of the others. -/
theorem Element.read (first : Bool) {e : Element} (spaced : e.Spaced)
    (takes : Takes (Json.value depth) (e.text.map some) e.value)
    {xs : List Value} (later : ElementsRead (Json.value depth) false s xs rest) {t : List Symbol}
    (comes : Comes first t (e.whole.map some ++ s)) :
    ElementsRead (Json.value depth) first t (e.value :: xs) rest := by
  have behind := spaced.after.elements later rfl
  have here := takes _ behind.ends
  -- the next element is looked for up to its first visible symbol, and is read from there
  obtain ⟨c, u, visible, unclosed⟩ := value_starts here
  have whole : skipSpace (e.whole.map some ++ s) = c :: u := by
    simpa [Element.whole, spaced.before.skip] using visible
  refine .element (nextElement_true.2 ⟨_, c, u, comes, whole, unclosed, rfl⟩) ?_ behind
  rw [← visible, value_skipSpace, here]

theorem Element.read_later {elements : List Element} (spaced : ∀ e ∈ elements, e.Spaced)
    (takes : ∀ e ∈ elements, Takes (Json.value depth) (e.text.map some) e.value)
    (rest : List Symbol) :
    ElementsRead (Json.value depth) false
      (((elements.map Element.whole).flatMap (List.cons ',')).map some ++ some ']' :: rest)
      (elements.map Element.value) rest := by
  induction elements with
  | nil => exact .closed rfl
  | cons e elements ih =>
    obtain ⟨here, others⟩ := List.forall_mem_cons.1 spaced
    obtain ⟨take, takes⟩ := List.forall_mem_cons.1 takes
    refine Element.read Bool.false here take (ih others takes) ?_
    simp [Comes, skipSpace_cons_of_visible (c := some ',') rfl]

theorem Member.read (first : Bool) {m : Member} (spaced : m.Spaced)
    (takes : Takes (Json.value depth) (m.text.map some) m.value)
    {ms : List (String × Value)} (later : MembersRead (Json.value depth) false s ms rest)
    {t : List Symbol} (comes : Comes first t (m.whole.map some ++ s)) :
    MembersRead (Json.value depth) first t (m.pair :: ms) rest := by
  have behind := spaced.after.members later rfl
  obtain ⟨body, quote, named⟩ := spaced.named.read (m.beforeColon.map some ++ some ':' ::
    (m.afterColon.map some ++ (m.text.map some ++ (m.after.map some ++ s))))
  have opens : skipSpace (m.whole.map some ++ s) = some '"' :: body := by
    have shown : skipSpace (some '"' :: body) = some '"' :: body := skipSpace_cons_of_visible rfl
    rw [← quote] at shown
    simpa [Member.whole, spaced.before.skip, quote] using shown
  have joined := (spaced.beforeColon.skip _).trans (skipSpace_cons_of_visible (c := some ':')
    (s := m.afterColon.map some ++ (m.text.map some ++ (m.after.map some ++ s))) rfl)
  exact .member (nextName_some.2 ⟨_, body, comes, opens, named⟩) (colon_ok.2 joined)
    (spaced.afterColon.value.trans (takes _ behind.ends)) behind

theorem Member.read_later {members : List Member} (spaced : ∀ m ∈ members, m.Spaced)
    (takes : ∀ m ∈ members, Takes (Json.value depth) (m.text.map some) m.value)
    (rest : List Symbol) :
    MembersRead (Json.value depth) false
      (((members.map Member.whole).flatMap (List.cons ',')).map some ++ some '\x7d' :: rest)
      (members.map Member.pair) rest := by
  induction members with
  | nil => exact .closed rfl
  | cons m members ih =>
    obtain ⟨here, others⟩ := List.forall_mem_cons.1 spaced
    obtain ⟨take, takes⟩ := List.forall_mem_cons.1 takes
    refine Member.read Bool.false here take (ih others takes) ?_
    simp [Comes, skipSpace_cons_of_visible (c := some ',') rfl]

end

/-- A value is buffered from every text that it has. -/
theorem ValueText.takes {depth : Nat} {v : Value} {text : List Char} (spelled : ValueText depth v text) :
    Takes (value depth) (text.map some) v := by
  induction spelled with
  | null =>
    intro rest _
    rw [value_scalar (c := 'n') rfl (by decide) (by decide)]
    exact map_eq_ok.2 ⟨_, keyword_append ['u', 'l', 'l'] rest, rfl⟩
  | @true depth => exact (reads_value_bool depth Bool.true).takes
  | @false depth => exact (reads_value_bool depth Bool.false).takes
  | number literal range => exact literal.takes range
  | string quoted =>
    intro rest _
    obtain ⟨body, quote, read⟩ := quoted.read rest
    rw [quote, value_scalar (c := '"') rfl (by decide) (by decide)]
    exact map_eq_ok.2 ⟨_, read, rfl⟩
  | @emptyList depth blank space =>
    intro rest _
    have close : skipSpace (blank.map some ++ some ']' :: rest) = some ']' :: rest :=
      (space.skip _).trans (skipSpace_cons_of_visible rfl)
    have read := (listOf_iff (value_local depth)).2 (.closed close)
    simpa using (value_list rfl).trans (map_eq_ok.2 ⟨_, read, rfl⟩)
  | @list depth elements nonempty spaced _ takes =>
    intro rest _
    cases elements with
    | nil => exact absurd rfl nonempty
    | cons e elements =>
      obtain ⟨here, others⟩ := List.forall_mem_cons.1 spaced
      obtain ⟨take, takes⟩ := List.forall_mem_cons.1 takes
      have read := (listOf_iff (value_local depth)).2
        (Element.read Bool.true here take (Element.read_later others takes rest) rfl)
      rw [List.map_cons, commaSeparated_cons]
      simpa using (value_list rfl).trans (map_eq_ok.2 ⟨_, read, rfl⟩)
  | @emptyObject depth blank space =>
    intro rest _
    have close : skipSpace (blank.map some ++ some '\x7d' :: rest) = some '\x7d' :: rest :=
      (space.skip _).trans (skipSpace_cons_of_visible rfl)
    have read := (objectOf_iff (value_local depth)).2 (.closed close)
    simpa using (value_object rfl).trans (map_eq_ok.2 ⟨_, read, rfl⟩)
  | @object depth members nonempty spaced _ takes =>
    intro rest _
    cases members with
    | nil => exact absurd rfl nonempty
    | cons m members =>
      obtain ⟨here, others⟩ := List.forall_mem_cons.1 spaced
      obtain ⟨take, takes⟩ := List.forall_mem_cons.1 takes
      have read := (objectOf_iff (value_local depth)).2
        (Member.read Bool.true here take (Member.read_later others takes rest) rfl)
      rw [List.map_cons, commaSeparated_cons]
      simpa using (value_object rfl).trans (map_eq_ok.2 ⟨_, read, rfl⟩)

/-- A text is buffered as the value that it denotes. -/
theorem Denotes.parse {v : Value} {text : String} (denotes : Denotes v text) :
    Decoder.any.parseText text = .ok v := by
  cases denotes with
  | @spelled before middle after whole leading trailing value =>
    have blank : skipSpace (after.map some) = [] := by
      rw [← List.append_nil (after.map some)]
      exact trailing.skip []
    refine Decoder.parse_eq_ok.2 ⟨after.map some, ?_, blank⟩
    rw [whole, List.map_append, List.map_append, List.append_assoc]
    exact leading.value.trans (value.takes _ trailing.ends)

theorem CharText.written (c : Char) : CharText c (escapeChar c) := by
  obtain ⟨e, written, escaped⟩ | ⟨control, written⟩ | ⟨quote, backslash, visible, written⟩ :=
    escapeChar_cases c
  · exact written ▸ .escape escaped
  · have zero : hexValue? (some '0') = some 0 := rfl
    have high := hexValue_hexDigit (n := c.toNat / 16) (by omega)
    have low := hexValue_hexDigit (n := c.toNat % 16) (by omega)
    have whole : ((0 * 16 + 0) * 16 + c.toNat / 16) * 16 + c.toNat % 16 = c.toNat := by omega
    have unit := CodeUnit.digits zero zero high low
    rw [whole] at unit
    have small : c.toNat < 0xD800 := Nat.lt_of_lt_of_le control (by decide)
    obtain ⟨noLead, noTrail⟩ := unpaired_of_lt small
    rw [written]
    simpa only [Char.ofNat_toNat] using CharText.unit unit noLead noTrail
  · exact written ▸ .plain quote backslash visible

theorem StringText.written (s : String) : StringText s (quoteString s) := by
  have spelled : List.Forall₂ CharText s.toList (s.toList.map escapeChar) :=
    List.forall₂_map_right_iff.2 (List.forall₂_same.2 fun c _ => .written c)
  rw [quoteString, List.flatMap_def]
  exact .quoted spelled

def Member.written (m : String × List Char × Value) : Member :=
  ⟨⟨m.2.2, m.2.1, [], []⟩, m.1, quoteString m.1, [], []⟩

theorem Member.spaced_written (m : String × List Char × Value) : (written m).Spaced :=
  ⟨⟨nofun, nofun⟩, nofun, nofun, .written m.1⟩

theorem ValueText.written_object {depth : Nat} {written : List (String × List Char × Value)}
    (values : ∀ m ∈ written, ValueText depth m.2.2 m.2.1) :
    ValueText (depth + 1) (.object (written.map fun m => (m.1, m.2.2)))
      (writeObject (written.map fun m => (m.1, m.2.1))) := by
  by_cases none : written = []
  · subst none
    have space : Blank [] := nofun
    exact .emptyObject space
  · have spaced : ∀ m ∈ written.map Member.written, m.Spaced :=
      List.forall_mem_map.2 fun m _ => Member.spaced_written m
    have text := ValueText.object (by simpa using none) spaced (List.forall_mem_map.2 values)
    simpa [writeObject, Member.written, Member.whole, Member.pair, Element.whole,
      Function.comp_def] using text

end ChannelAgent.Json
