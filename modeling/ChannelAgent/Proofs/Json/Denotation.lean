import ChannelAgent.Proofs.Json.Grammar

set_option autoImplicit false

namespace ChannelAgent.Json

section

variable {place : Place} {clean : Bool} {acc : List Char} {s rest : List Symbol} {text : String}

/-- A string with a stray byte in it is not read. -/
theorem stringBody_unclean : stringBody place false acc s ≠ .ok (text, rest) := by
  intro read
  induction s generalizing place acc with
  | nil => cases place <;> cases read
  | cons x s ih =>
    cases place with
    | _ =>
      simp only [stringBody, Bool.false_eq_true, ↓reduceIte] at read
      repeat' split at read
      all_goals first | cases read | exact ih read

/-- A digit of a code unit in front of others. -/
theorem of_digit {lead? : Option Nat} {left value : Nat}
    (read : stringBody (.unit lead? (left + 1) value) clean acc s = .ok (text, rest)) :
    ∃ c d t, s = some c :: t ∧ hexValue? (some c) = some d ∧
      stringBody (.unit lead? left (value * 16 + d)) clean acc t = .ok (text, rest) := by
  rcases s with _ | ⟨_ | c, t⟩
  · cases read
  · cases read
  · simp only [stringBody] at read
    split at read
    · cases read
    · rename_i d digit
      exact ⟨c, d, t, rfl, digit, read⟩

/-- The last digit of a code unit that stands for itself or leads another one. -/
theorem of_lastDigit {value : Nat}
    (read : stringBody (.unit none 0 value) clean acc s = .ok (text, rest)) :
    ∃ c d t, s = some c :: t ∧ hexValue? (some c) = some d ∧
      isTrailing (value * 16 + d) = false ∧
        ((isLeading (value * 16 + d) = false ∧
          stringBody .plain clean (Char.ofNat (value * 16 + d) :: acc) t = .ok (text, rest)) ∨
        (isLeading (value * 16 + d) = true ∧
          stringBody (.partner (value * 16 + d)) clean acc t = .ok (text, rest))) := by
  rcases s with _ | ⟨_ | c, t⟩
  · cases read
  · cases read
  · simp only [stringBody] at read
    split at read
    · cases read
    · rename_i d digit
      refine ⟨c, d, t, rfl, digit, ?_⟩
      cases trails : isTrailing (value * 16 + d) with
      | true =>
        rw [trails] at read
        cases read
      | false =>
        cases leads : isLeading (value * 16 + d) <;>
          simpa only [trails, leads, Bool.false_eq_true, ↓reduceIte, true_and, false_and, or_false,
            false_or, reduceCtorEq] using read

theorem of_lastPartnerDigit {lead value : Nat}
    (read : stringBody (.unit (some lead) 0 value) clean acc s = .ok (text, rest)) :
    ∃ c d t, s = some c :: t ∧ hexValue? (some c) = some d ∧ isTrailing (value * 16 + d) = true ∧
      stringBody .plain clean (paired lead (value * 16 + d) :: acc) t = .ok (text, rest) := by
  rcases s with _ | ⟨_ | c, t⟩
  · cases read
  · cases read
  · simp only [stringBody] at read
    split at read
    · cases read
    · rename_i d digit
      split at read
      · rename_i trails
        exact ⟨c, d, t, rfl, digit, trails, read⟩
      · cases read

theorem of_unit (read : stringBody (.unit none 3 0) clean acc s = .ok (text, rest)) :
    ∃ n digits t, CodeUnit n digits ∧ s = digits.map some ++ t ∧ isTrailing n = false ∧
      ((isLeading n = false ∧ stringBody .plain clean (Char.ofNat n :: acc) t = .ok (text, rest)) ∨
        (isLeading n = true ∧ stringBody (.partner n) clean acc t = .ok (text, rest))) := by
  obtain ⟨a, w, t, rfl, first, read⟩ := of_digit read
  obtain ⟨b, x, t, rfl, second, read⟩ := of_digit read
  obtain ⟨c, y, t, rfl, third, read⟩ := of_digit read
  obtain ⟨d, z, t, rfl, fourth, behind⟩ := of_lastDigit read
  rw [Nat.zero_mul, Nat.zero_add] at behind
  exact ⟨_, _, t, .digits first second third fourth, rfl, behind⟩

theorem of_partner {lead : Nat} (read : stringBody (.partner lead) clean acc s = .ok (text, rest)) :
    ∃ n digits t, CodeUnit n digits ∧ s = some '\\' :: some 'u' :: (digits.map some ++ t) ∧
      isTrailing n = true ∧
        stringBody .plain clean (paired lead n :: acc) t = .ok (text, rest) := by
  rcases s with _ | ⟨x, _ | ⟨y, s⟩⟩
  · cases read
  · simp only [stringBody] at read
    split at read <;> cases read
  · simp only [stringBody] at read
    split at read
    · rename_i backslash
      split at read
      · rename_i mark
        split at read
        · obtain ⟨a, w, t, rfl, first, read⟩ := of_digit read
          obtain ⟨b, x, t, rfl, second, read⟩ := of_digit read
          obtain ⟨c, y, t, rfl, third, read⟩ := of_digit read
          obtain ⟨d, z, t, rfl, fourth, trails, behind⟩ := of_lastPartnerDigit read
          rw [Nat.zero_mul, Nat.zero_add] at trails behind
          refine ⟨_, _, t, .digits first second third fourth, ?_, trails, behind⟩
          rw [backslash, mark]
          rfl
        · cases read
      · cases read
    · cases read

/-- Behind a backslash. -/
theorem of_escape (read : stringBody .escape clean acc s = .ok (text, rest)) :
    ∃ c piece t, CharText c ('\\' :: piece) ∧ s = piece.map some ++ t ∧
      stringBody .plain clean (c :: acc) t = .ok (text, rest) := by
  rcases s with _ | ⟨_ | e, s⟩
  · cases read
  · cases read
  · simp only [stringBody] at read
    split at read
    · rename_i mark
      subst mark
      split at read
      · obtain ⟨n, digits, t, unit, rfl, noTrail, ⟨noLead, behind⟩ | ⟨leads, behind⟩⟩ := of_unit read
        · exact ⟨_, 'u' :: digits, t, .unit unit noLead noTrail, rfl, behind⟩
        · obtain ⟨m, digits', t, unit', rfl, trails, behind⟩ := of_partner behind
          exact ⟨_, 'u' :: digits ++ '\\' :: 'u' :: digits', t, .pair unit unit' leads trails,
            by simp, behind⟩
      · cases read
    · split at read
      · rename_i c escaped
        exact ⟨c, [e], s, .escape escaped, rfl, read⟩
      · cases read

/-- A string that is read ends at a quote, or a character stands in front of what is read on. -/
theorem of_plain (read : stringBody .plain true acc s = .ok (text, rest)) :
    (s = some '"' :: rest ∧ text = String.ofList acc.reverse) ∨
      ∃ c piece t, CharText c piece ∧ s = piece.map some ++ t ∧
        stringBody .plain true (c :: acc) t = .ok (text, rest) := by
  rcases s with _ | ⟨_ | c, s⟩
  · cases read
  · exact absurd read stringBody_unclean
  · simp only [stringBody] at read
    split at read
    · rename_i quote
      subst quote
      obtain ⟨rfl, rfl⟩ := Prod.mk.inj (Except.ok.inj read)
      exact .inl ⟨rfl, rfl⟩
    · rename_i noQuote
      right
      split at read
      · rename_i backslash
        subst backslash
        obtain ⟨c, piece, t, spelled, rfl, behind⟩ := of_escape read
        exact ⟨c, _, t, spelled, rfl, behind⟩
      · rename_i noBackslash
        split at read
        · cases read
        · rename_i visible
          exact ⟨c, [c], s, .plain noQuote noBackslash (Nat.le_of_not_lt visible), rfl, read⟩

theorem CharText.ne_nil {c : Char} {piece : List Char} (spelled : CharText c piece) : piece ≠ [] := by
  cases spelled <;> exact List.cons_ne_nil _ _

theorem texts_of_stringBody (read : stringBody .plain true acc s = .ok (text, rest)) :
    ∃ chars texts, List.Forall₂ CharText chars texts ∧
      s = texts.flatten.map some ++ some '"' :: rest ∧ text = String.ofList (acc.reverse ++ chars) := by
  -- a character takes up to twelve symbols, so the induction is on what remains of the text
  induction length : s.length using Nat.strongRecOn generalizing s acc with
  | ind n ih =>
    obtain ⟨rfl, rfl⟩ | ⟨c, piece, t, spelled, rfl, behind⟩ := of_plain read
    · exact ⟨[], [], .nil, rfl, by simp⟩
    · have shorter : t.length < n := by
        have some := List.length_pos_of_ne_nil spelled.ne_nil
        rw [← length, List.length_append, List.length_map]
        omega
      obtain ⟨chars, texts, others, rfl, rfl⟩ := ih t.length shorter behind rfl
      exact ⟨c :: chars, piece :: texts, .cons spelled others, by simp, by simp⟩

theorem StringText.of_read {s rest : List Symbol} {text : String}
    (read : stringToken s = .ok (text, rest)) :
    ∃ quoted, StringText text quoted ∧ some '"' :: s = quoted.map some ++ rest := by
  obtain ⟨chars, texts, spelled, rfl, rfl⟩ := texts_of_stringBody read
  have same : (String.ofList (([] : List Char).reverse ++ chars)).toList = chars := by simp
  exact ⟨_, .quoted (same.symm ▸ spelled), by simp⟩

end

section

variable {ended : Fault} {s rest : List Symbol}

theorem exists_digits (all : ∀ x ∈ s, isDigit x = true) :
    ∃ text : List Char, s = text.map some ∧ ∀ c ∈ text, '0' ≤ c ∧ c ≤ '9' := by
  induction s with
  | nil => exact ⟨[], rfl, nofun⟩
  | cons x s ih =>
    obtain ⟨first, later⟩ := List.forall_mem_cons.1 all
    obtain ⟨text, rfl, range⟩ := ih later
    cases x with
    | none => cases first
    | some c => exact ⟨c :: text, rfl, List.forall_mem_cons.2 ⟨of_decide_eq_true first, range⟩⟩

theorem DigitText.of_read {digits : List Nat} (read : someDigits ended s = .ok (digits, rest)) :
    ∃ text, DigitText digits text ∧ s = text.map some ++ rest := by
  cases s with
  | nil => cases read
  | cons x s =>
    rw [someDigits] at read
    split at read
    · rename_i first
      obtain ⟨rfl, rfl⟩ := Prod.mk.inj (Except.ok.inj read)
      have all : ∀ y ∈ (x :: s).takeWhile isDigit, isDigit y = true := fun y found =>
        List.mem_takeWhile_imp found
      obtain ⟨text, whole, range⟩ := exists_digits all
      refine ⟨text, ⟨?_, range, ?_⟩, ?_⟩
      · rintro rfl
        rw [List.takeWhile_cons_of_pos first] at whole
        cases whole
      · rw [whole, List.map_map]
        exact List.map_congr_left fun c listed => if_pos (range c listed)
      · rw [← whole, List.takeWhile_append_dropWhile]
    · cases read

theorem FractionText.of_read {fraction : Option (List Nat)}
    (read : fractionPart ended s = .ok (fraction, rest)) :
    ∃ text, FractionText fraction text ∧ s = text.map some ++ rest := by
  unfold fractionPart at read
  split at read
  · obtain ⟨⟨digits, left⟩, found, done⟩ := bind_eq_ok.1 read
    obtain ⟨rfl, rfl⟩ := Prod.mk.inj (Except.ok.inj done)
    obtain ⟨text, spelled, rfl⟩ := DigitText.of_read found
    exact ⟨_, .present spelled, rfl⟩
  · obtain ⟨rfl, rfl⟩ := Prod.mk.inj (Except.ok.inj read)
    exact ⟨[], .absent, rfl⟩

theorem ExponentText.of_read {exponent : Option (Bool × List Nat)}
    (read : exponentPart ended s = .ok (exponent, rest)) :
    ∃ text, ExponentText exponent text ∧ s = text.map some ++ rest := by
  by_cases marks : Marks s
  · obtain ⟨c, t, rfl, mark⟩ := marks
    rw [exponentPart_of_marks mark] at read
    obtain ⟨⟨digits, left⟩, found, same⟩ := map_eq_ok.1 read
    obtain ⟨rfl, rfl⟩ := Prod.mk.inj same
    obtain ⟨text, spelled, behind⟩ := DigitText.of_read found
    unfold exponentSign at behind ⊢
    split at behind
    · rename_i t
      obtain rfl : t = text.map some ++ left := behind
      exact ⟨_, .minus mark spelled, rfl⟩
    · rename_i t
      obtain rfl : t = text.map some ++ left := behind
      exact ⟨_, .plus mark spelled, rfl⟩
    · exact ⟨_, .bare mark spelled, congrArg _ behind⟩
  · rw [exponentPart_of_not_marks marks] at read
    obtain ⟨rfl, rfl⟩ := Prod.mk.inj (Except.ok.inj read)
    exact ⟨[], .absent, rfl⟩

theorem MagnitudeText.of_read {negative : Bool} {l : Literal}
    (read : literal ended negative s = .ok (l, rest)) :
    ∃ text, MagnitudeText l text ∧ s = text.map some ++ rest := by
  obtain ⟨⟨whole, afterWhole⟩, readWhole, read⟩ := bind_eq_ok.1 read
  obtain ⟨⟨fraction, afterFraction⟩, readFraction, read⟩ := bind_eq_ok.1 read
  obtain ⟨⟨exponent, afterExponent⟩, readExponent, done⟩ := bind_eq_ok.1 read
  obtain ⟨rfl, rfl⟩ := Prod.mk.inj (Except.ok.inj done)
  obtain ⟨⟨digits, left⟩, readDigits, alone⟩ := bind_eq_ok.1 readWhole
  simp only at alone
  split at alone
  · cases alone
  · rename_i sound
    obtain ⟨rfl, rfl⟩ := Prod.mk.inj (Except.ok.inj alone)
    obtain ⟨digitText, spelled, rfl⟩ := DigitText.of_read readDigits
    obtain ⟨point, pointed, rfl⟩ := FractionText.of_read readFraction
    obtain ⟨power, powered, rfl⟩ := ExponentText.of_read readExponent
    refine ⟨_, .spelled spelled (fun zero => ?_) pointed powered, by simp⟩
    exact Decidable.byContradiction fun many => sound ⟨many, zero⟩

end

theorem NumberText.of_read {depth : Nat} {s rest : List Symbol} {n : Number}
    (read : value depth s = .ok (.number n, rest)) :
    ∃ l text, NumberText l text ∧ l.number? = some n ∧ skipSpace s = text.map some ++ rest := by
  rcases value_number_iff.1 read with ⟨t, visible, found⟩ | found
  · obtain ⟨l, read, range⟩ := numberToken_ok.1 found
    obtain ⟨text, magnitude, rfl⟩ := MagnitudeText.of_read read
    exact ⟨l, _, .negative (literal_negative read) magnitude, range, visible⟩
  · obtain ⟨l, read, range⟩ := numberToken_ok.1 found
    obtain ⟨text, magnitude, whole⟩ := MagnitudeText.of_read read
    exact ⟨l, _, .positive (literal_negative read) magnitude, range, whole⟩

section

variable {c : Symbol} {s t rest : List Symbol}

theorem Blank.append {before after : List Char} (front : Blank before) (behind : Blank after) :
    Blank (before ++ after) := List.forall_mem_append.2 ⟨front, behind⟩

theorem exists_blank (all : ∀ x ∈ s, isSpace x = true) :
    ∃ blank : List Char, Blank blank ∧ s = blank.map some := by
  induction s with
  | nil => exact ⟨[], nofun, rfl⟩
  | cons x s ih =>
    obtain ⟨first, later⟩ := List.forall_mem_cons.1 all
    obtain ⟨blank, space, rfl⟩ := ih later
    cases x with
    | none => cases first
    | some c =>
      have here : c = ' ' ∨ c = '\t' ∨ c = '\n' ∨ c = '\r' := by
        simpa [isSpace, or_assoc] using first
      exact ⟨c :: blank, List.forall_mem_cons.2 ⟨here, space⟩, rfl⟩

theorem blank_of_skipSpace (visible : skipSpace s = c :: t) :
    ∃ blank, Blank blank ∧ s = blank.map some ++ c :: t := by
  obtain ⟨-, front, rfl, all, -⟩ := skipSpace_extent visible
  obtain ⟨blank, space, rfl⟩ := exists_blank all
  exact ⟨blank, space, rfl⟩

end

/-- What is buffered as a value is a text of the value, behind white space. -/
def Spelling (depth : Nat) : Prop :=
  ∀ {s v rest}, value depth s = .ok (v, rest) →
    ∃ before text, Blank before ∧ ValueText depth v text ∧
      s = before.map some ++ (text.map some ++ rest)

section

variable {depth : Nat} {c : Symbol} {s t u v w rest tail : List Symbol} {x : Value} {name : String}
  {after : List Char}

theorem Element.of_read (spelling : Spelling depth) (visible : skipSpace t = c :: u)
    (here : Json.value depth (c :: u) = .ok (x, after.map some ++ tail)) (space : Blank after) :
    ∃ e : Element, e.value = x ∧ e.Spaced ∧ ValueText depth e.value e.text ∧
      t = e.whole.map some ++ tail := by
  obtain ⟨blank, front, rfl⟩ := blank_of_skipSpace visible
  obtain ⟨blank', _, front', spelled, whole⟩ := spelling here
  refine ⟨⟨x, _, blank ++ blank', after⟩, rfl, ⟨front.append front', space⟩, spelled, ?_⟩
  simp [whole, Element.whole]

theorem Member.of_read (spelling : Spelling depth) (quote : skipSpace t = some '"' :: u)
    (named : stringToken u = .ok (name, v)) (joined : skipSpace v = some ':' :: w)
    (here : Json.value depth w = .ok (x, after.map some ++ tail)) (space : Blank after) :
    ∃ m : Member, m.pair = (name, x) ∧ m.Spaced ∧ ValueText depth m.value m.text ∧
      t = m.whole.map some ++ tail := by
  obtain ⟨blank, front, rfl⟩ := blank_of_skipSpace quote
  obtain ⟨quoted, nameText, whole⟩ := StringText.of_read named
  obtain ⟨beforeColon, colon, rfl⟩ := blank_of_skipSpace joined
  obtain ⟨afterColon, _, behind, spelled, rfl⟩ := spelling here
  refine ⟨⟨⟨x, _, blank, after⟩, name, quoted, beforeColon, afterColon⟩, rfl,
    ⟨⟨front, space⟩, colon, behind, nameText⟩, spelled, ?_⟩
  simp [whole, Member.whole]

/-- Elements behind the first one, with the white space in front of the next comma. -/
theorem later_elements {xs : List Value} (spelling : Spelling depth)
    (read : ElementsRead (value depth) false s xs rest) :
    ∃ (after : List Char) (elements : List Element), Blank after ∧
      (∀ e ∈ elements, e.Spaced) ∧ (∀ e ∈ elements, ValueText depth e.value e.text) ∧
        xs = elements.map Element.value ∧ s = after.map some ++
          (((elements.map Element.whole).flatMap (List.cons ',')).map some ++ some ']' :: rest) := by
  generalize later : false = first at read
  induction read with
  | closed close =>
    obtain ⟨after, space, rfl⟩ := blank_of_skipSpace close
    exact ⟨after, [], space, nofun, nofun, rfl, rfl⟩
  | element next here _ ih =>
    subst later
    obtain ⟨t, c, u, comes, visible, -, rfl⟩ := nextElement_true.1 next
    -- the white space behind an element is skipped on the way to the next comma
    obtain ⟨after', elements, space', spaced, texts, rfl, rfl⟩ := ih rfl
    obtain ⟨after, space, rfl⟩ := blank_of_skipSpace comes
    obtain ⟨e, rfl, spaces, text, rfl⟩ := Element.of_read spelling visible here space'
    exact ⟨after, e :: elements, space, List.forall_mem_cons.2 ⟨spaces, spaced⟩,
      List.forall_mem_cons.2 ⟨text, texts⟩, rfl, by simp⟩

theorem later_members {ms : List (String × Value)} (spelling : Spelling depth)
    (read : MembersRead (value depth) false s ms rest) :
    ∃ (after : List Char) (members : List Member), Blank after ∧
      (∀ m ∈ members, m.Spaced) ∧ (∀ m ∈ members, ValueText depth m.value m.text) ∧
        ms = members.map Member.pair ∧ s = after.map some ++
          (((members.map Member.whole).flatMap (List.cons ',')).map some ++
            some '\x7d' :: rest) := by
  generalize later : false = first at read
  induction read with
  | closed close =>
    obtain ⟨after, space, rfl⟩ := blank_of_skipSpace close
    exact ⟨after, [], space, nofun, nofun, rfl, rfl⟩
  | member named joined here _ ih =>
    subst later
    obtain ⟨t, u, comes, quote, token⟩ := nextName_some.1 named
    obtain ⟨after', members, space', spaced, texts, rfl, rfl⟩ := ih rfl
    obtain ⟨after, space, rfl⟩ := blank_of_skipSpace comes
    obtain ⟨m, pair, spaces, text, rfl⟩ :=
      Member.of_read spelling quote token (colon_ok.1 joined) here space'
    exact ⟨after, m :: members, space, List.forall_mem_cons.2 ⟨spaces, spaced⟩,
      List.forall_mem_cons.2 ⟨text, texts⟩, by rw [List.map_cons, pair], by simp⟩

theorem list_of_read {xs : List Value} (spelling : Spelling depth)
    (read : ElementsRead (value depth) true s xs rest) :
    ∃ text, ValueText (depth + 1) (.list xs) text ∧ some '[' :: s = text.map some ++ rest := by
  cases read with
  | closed close =>
    obtain ⟨blank, space, rfl⟩ := blank_of_skipSpace close
    exact ⟨_, .emptyList space, by simp⟩
  | element next here later =>
    obtain ⟨t, c, u, rfl, visible, -, rfl⟩ := nextElement_true.1 next
    obtain ⟨after, elements, space, spaced, texts, rfl, rfl⟩ := later_elements spelling later
    obtain ⟨e, rfl, spaces, text, rfl⟩ := Element.of_read spelling visible here space
    refine ⟨_, .list (List.cons_ne_nil e elements) (List.forall_mem_cons.2 ⟨spaces, spaced⟩)
      (List.forall_mem_cons.2 ⟨text, texts⟩), ?_⟩
    rw [List.map_cons, commaSeparated_cons]
    simp

theorem object_of_read {ms : List (String × Value)} (spelling : Spelling depth)
    (read : MembersRead (value depth) true s ms rest) :
    ∃ text, ValueText (depth + 1) (.object ms) text ∧
      some '\x7b' :: s = text.map some ++ rest := by
  cases read with
  | closed close =>
    obtain ⟨blank, space, rfl⟩ := blank_of_skipSpace close
    exact ⟨_, .emptyObject space, by simp⟩
  | member named joined here later =>
    obtain ⟨t, u, rfl, quote, token⟩ := nextName_some.1 named
    obtain ⟨after, members, space, spaced, texts, rfl, rfl⟩ := later_members spelling later
    obtain ⟨m, pair, spaces, text, rfl⟩ :=
      Member.of_read spelling quote token (colon_ok.1 joined) here space
    rw [← pair]
    refine ⟨_, .object (List.cons_ne_nil m members) (List.forall_mem_cons.2 ⟨spaces, spaced⟩)
      (List.forall_mem_cons.2 ⟨text, texts⟩), ?_⟩
    rw [List.map_cons, commaSeparated_cons]
    simp

end

section

variable {depth : Nat} {s t rest : List Symbol} {v : Value}

theorem scalar_of_read {c : Char} (visible : skipSpace s = some c :: t) (noList : c ≠ '[')
    (noObject : c ≠ '\x7b') (read : scalar c t = .ok (v, rest)) :
    ∃ text, ValueText depth v text ∧ some c :: t = text.map some ++ rest := by
  have number {n : Number} (same : v = .number n) :
      ∃ text, ValueText depth v text ∧ some c :: t = text.map some ++ rest := by
    subst same
    have here : value depth s = .ok (.number n, rest) :=
      (value_scalar visible noList noObject).trans read
    obtain ⟨l, text, spelled, range, whole⟩ := NumberText.of_read here
    exact ⟨text, .number spelled range, visible.symm.trans whole⟩
  rcases starts_scalar read with rfl | rfl | rfl | rfl | digit | rfl
  · obtain ⟨r, found, same⟩ := map_eq_ok.1 read
    obtain ⟨rfl, rfl⟩ := Prod.mk.inj same
    exact ⟨_, .null, congrArg _ (keyword_extent found)⟩
  · obtain ⟨r, found, same⟩ := map_eq_ok.1 read
    obtain ⟨rfl, rfl⟩ := Prod.mk.inj same
    exact ⟨_, .true, congrArg _ (keyword_extent found)⟩
  · obtain ⟨r, found, same⟩ := map_eq_ok.1 read
    obtain ⟨rfl, rfl⟩ := Prod.mk.inj same
    exact ⟨_, .false, congrArg _ (keyword_extent found)⟩
  · obtain ⟨r, found, same⟩ := map_eq_ok.1 read
    exact number (Prod.mk.inj same).1.symm
  · obtain ⟨r, found, same⟩ := map_eq_ok.1 ((scalar_digit digit).1.symm.trans read)
    exact number (Prod.mk.inj same).1.symm
  · obtain ⟨r, found, same⟩ := map_eq_ok.1 read
    obtain ⟨rfl, rfl⟩ := Prod.mk.inj same
    obtain ⟨quoted, spelled, whole⟩ := StringText.of_read found
    exact ⟨quoted, .string spelled, whole⟩

theorem spelling_of_text {c : Symbol} (visible : skipSpace s = c :: t)
    (spelled : ∃ text, ValueText depth v text ∧ c :: t = text.map some ++ rest) :
    ∃ before text, Blank before ∧ ValueText depth v text ∧
      s = before.map some ++ (text.map some ++ rest) := by
  obtain ⟨blank, front, rfl⟩ := blank_of_skipSpace visible
  obtain ⟨text, spelled, whole⟩ := spelled
  exact ⟨blank, text, front, spelled, by rw [whole]⟩

theorem spelling (depth : Nat) : Spelling depth := by
  induction depth with
  | zero =>
    intro s v rest read
    cases value_read read with
    | scalar visible noList noObject read =>
      exact spelling_of_text visible (scalar_of_read visible noList noObject read)
  | succ depth ih =>
    intro s v rest read
    cases value_read read with
    | scalar visible noList noObject read =>
      exact spelling_of_text visible (scalar_of_read visible noList noObject read)
    | list visible read => exact spelling_of_text visible (list_of_read ih read)
    | object visible read => exact spelling_of_text visible (object_of_read ih read)

end

/-- The texts that are buffered as a value are those that denote it. -/
theorem denotes_iff {v : Value} {text : String} :
    Denotes v text ↔ Decoder.any.parseText text = .ok v := by
  constructor
  · exact Denotes.parse
  · intro parsed
    obtain ⟨rest, read, blank⟩ := Decoder.parse_eq_ok.1 parsed
    obtain ⟨before, middle, leading, value, whole⟩ := spelling depthLimit read
    obtain ⟨after, trailing, rfl⟩ := exists_blank (List.dropWhile_eq_nil_iff.1 blank)
    refine .spelled ?_ leading trailing value
    apply List.map_injective_iff.2 fun _ _ => Option.some.inj
    simpa using whole

end ChannelAgent.Json
