import Mathlib.Data.List.DropRight
import ChannelAgent.Proofs.Json.Reading

set_option autoImplicit false

namespace ChannelAgent.Json

theorem bind_eq_ok {ε α β : Type} {x : Except ε α} {f : α → Except ε β} {y : β} :
    (x >>= f) = .ok y ↔ ∃ a, x = .ok a ∧ f a = .ok y := by
  cases x with
  | error e => exact ⟨nofun, nofun⟩
  | ok a => exact ⟨fun done => ⟨a, rfl, done⟩, fun ⟨_, same, done⟩ => Except.ok.inj same ▸ done⟩

theorem map_eq_ok {ε α β : Type} {x : Except ε α} {f : α → β} {y : β} :
    x.map f = .ok y ↔ ∃ a, x = .ok a ∧ f a = y := by
  cases x with
  | error e => exact ⟨nofun, nofun⟩
  | ok a => simp [Except.map]

theorem Decoder.parse_eq_ok {α : Type} {d : Decoder α} {s : List Symbol} {x : α} :
    d.parse s = .ok x ↔ ∃ rest, d.read depthLimit s = .ok (x, rest) ∧ skipSpace rest = [] := by
  unfold Decoder.parse
  cases d.read depthLimit s with
  | error fault => simp
  | ok r =>
    obtain ⟨y, rest⟩ := r
    by_cases blank : skipSpace rest = []
    · simp [blank]
    · simp only [List.isEmpty_iff, blank, ↓reduceIte, reduceCtorEq, Except.ok.injEq, Prod.mk.injEq,
        false_iff, not_exists]
      rintro rest' ⟨⟨-, rfl⟩, blank'⟩
      exact blank blank'

/-- A digit or one of the given characters does not come next. -/
def EndsBefore (marks : List Char) (s : List Symbol) : Prop :=
  ∀ c ∈ s.head?, isDigit c = false ∧ c ∉ marks.map some

/-- A number in front of the symbols ends there. -/
abbrev Ends (s : List Symbol) : Prop := EndsBefore ['.', 'e', 'E'] s

/-- A reader takes some symbols for a value, whatever stands behind them, if a number ends there. -/
def Takes {α : Type} (read : Reader α) (taken : List Symbol) (x : α) : Prop :=
  ∀ rest, Ends rest → read (taken ++ rest) = .ok (x, rest)

theorem Reads.takes {α : Type} {read : Reader α} {text : List Char} {x : α}
    (reads : Reads read text x) : Takes read (text.map some) x :=
  fun rest _ => reads rest

section Ends

variable {marks fewer : List Char} {c : Symbol} {s rest : List Symbol}

theorem endsBefore_nil : EndsBefore marks [] := nofun

theorem endsBefore_cons : EndsBefore marks (c :: s) ↔ isDigit c = false ∧ c ∉ marks.map some := by
  simp only [EndsBefore, List.head?_cons, Option.mem_some, forall_eq']

instance (marks : List Char) : (s : List Symbol) → Decidable (EndsBefore marks s)
  | [] => isTrue endsBefore_nil
  | _ :: _ => decidable_of_iff _ endsBefore_cons.symm

theorem EndsBefore.mono (ends : EndsBefore marks s) (subset : fewer ⊆ marks) :
    EndsBefore fewer s := by
  intro c first
  obtain ⟨noDigit, noMark⟩ := ends c first
  exact ⟨noDigit, fun found => noMark (List.map_subset some subset found)⟩

theorem ends_append (more : s ≠ []) : Ends (s ++ rest) ↔ Ends s := by
  cases s with
  | nil => exact absurd rfl more
  | cons c s => rw [List.cons_append, Ends, Ends, endsBefore_cons, endsBefore_cons]

end Ends

theorem ends_of_isSpace {c : Symbol} {s : List Symbol} (space : isSpace c = true) :
    Ends (c :: s) := by
  simp only [isSpace, Bool.or_eq_true, decide_eq_true_eq] at space
  rcases space with ((rfl | rfl) | rfl) | rfl <;> exact endsBefore_cons.2 (by decide)

theorem skipSpace_cons_of_isSpace {c : Symbol} {s : List Symbol} (space : isSpace c = true) :
    skipSpace (c :: s) = skipSpace s :=
  List.dropWhile_cons_of_pos space

theorem skipSpace_cons_of_visible {c : Symbol} {s : List Symbol} (visible : isSpace c = false) :
    skipSpace (c :: s) = c :: s :=
  List.dropWhile_cons_of_neg (by simp [visible])

theorem skipSpace_skipSpace (s : List Symbol) : skipSpace (skipSpace s) = skipSpace s :=
  List.dropWhile_idempotent isSpace s

/-- White space is skipped up to the first symbol that is none, and no further. -/
theorem skipSpace_extent {c : Symbol} {s rest : List Symbol} (first : skipSpace s = c :: rest) :
    isSpace c = false ∧ ∃ space, s = space ++ c :: rest ∧ (∀ x ∈ space, isSpace x = true) ∧
      ∀ more, skipSpace (space ++ more) = skipSpace more := by
  induction s with
  | nil => cases first
  | cons x s ih =>
    by_cases space : isSpace x = true
    · rw [skipSpace_cons_of_isSpace space] at first
      obtain ⟨visible, blank, whole, spaces, skipped⟩ := ih first
      refine ⟨visible, x :: blank, by rw [whole, List.cons_append], ?_, fun more => ?_⟩
      · exact List.forall_mem_cons.2 ⟨space, spaces⟩
      · rw [List.cons_append, skipSpace_cons_of_isSpace space]
        exact skipped more
    · have visible : isSpace x = false := Bool.eq_false_iff.2 space
      rw [skipSpace_cons_of_visible visible] at first
      obtain ⟨rfl, rfl⟩ := List.cons.inj first
      exact ⟨visible, [], rfl, nofun, fun _ => rfl⟩

theorem skipSpace_taken {c : Symbol} {s rest : List Symbol} (first : skipSpace s = c :: rest) :
    ∃ taken, s = taken ++ rest ∧ taken ≠ [] ∧ ∀ more, skipSpace (taken ++ more) = c :: more := by
  obtain ⟨visible, space, rfl, -, skipped⟩ := skipSpace_extent first
  refine ⟨space ++ [c], by simp, by simp, fun more => ?_⟩
  rw [List.append_assoc, List.cons_append, List.nil_append, skipped]
  exact skipSpace_cons_of_visible visible

/-- A number ends in front of white space, and in front of every symbol behind which it ends. -/
theorem ends_of_skipSpace {c : Symbol} {s rest : List Symbol} (first : skipSpace s = c :: rest)
    (ends : Ends [c]) : Ends s := by
  cases s with
  | nil => exact endsBefore_nil
  | cons x s =>
    by_cases space : isSpace x = true
    · exact ends_of_isSpace space
    · rw [skipSpace_cons_of_visible (Bool.eq_false_iff.2 space)] at first
      obtain ⟨rfl, rfl⟩ := List.cons.inj first
      exact endsBefore_cons.2 (endsBefore_cons.1 ends)

theorem keyword_extent {word : List Char} {s rest : List Symbol}
    (read : keyword word s = .ok rest) : s = word.map some ++ rest := by
  induction word generalizing s with
  | nil =>
    cases s <;> simpa [keyword] using read
  | cons c word ih =>
    cases s with
    | nil => cases read
    | cons x s =>
      rw [keyword] at read
      split at read
      · rename_i same
        rw [same, ih read]
        rfl
      · cases read

theorem keyword_append (word : List Char) (rest : List Symbol) :
    keyword word (word.map some ++ rest) = .ok rest := by
  induction word with
  | nil => rw [List.map_nil, List.nil_append, keyword]
  | cons c word ih => simpa only [List.map_cons, List.cons_append, keyword, ↓reduceIte] using ih

/-- How many symbols a reader at a place of a string takes in any case. -/
def Place.owed : Place → Nat
  | .unit _ left _ => left + 1
  | _ => 0

/-- The place of a reader that skips the string. It does not look for pairs of surrogates. -/
def Place.skipped : Place → Place
  | .unit _ left _ => .unit none left 0
  | .partner _ => .plain
  | .partnerEscape _ => .escape
  | place => place

section Strings

variable {place next : Place} {clean clean' : Bool} {acc acc' : List Char} {x : Symbol}
  {s rest : List Symbol} {text : String}

/-- A symbol leads readers of a string from one place to the next, whatever follows. -/
structure Leads (place : Place) (clean : Bool) (acc : List Char) (x : Symbol) (next : Place)
    (clean' : Bool) (acc' : List Char) : Prop where
  owed : place.owed ≤ next.owed + 1
  takes : ∀ t, next.owed ≤ t.length →
    stringBody place clean acc (x :: t) = stringBody next clean' acc' t
  skips : ∀ t, next.owed ≤ t.length →
    skipString place.skipped (x :: t) = skipString next.skipped t

/-- A digit of a code unit is skipped like every other one. -/
theorem skipString_digit {lead? : Option Nat} {left value d : Nat} (digit : hexValue? x = some d) :
    skipString (Place.unit lead? left value).skipped (x :: s) =
      skipString (if left = 0 then .plain else .unit none (left - 1) 0) s := by
  cases left <;> simp only [Place.skipped, skipString, digit, Option.isNone_some,
    Bool.false_eq_true, ↓reduceIte, Nat.add_one_ne_zero, Nat.add_one_sub_one]

/-- A string goes on behind a symbol, at a place to which the symbol leads. -/
def GoesOn (place : Place) (clean : Bool) (acc : List Char) (x : Symbol) (s : List Symbol)
    (read : String × List Symbol) : Prop :=
  ∃ next clean' acc', Leads place clean acc x next clean' acc' ∧
    stringBody next clean' acc' s = .ok read

theorem goesOn_escape (read : stringBody .escape clean acc (x :: s) = .ok (text, rest)) :
    GoesOn .escape clean acc x s (text, rest) := by
  cases x with
  | none => cases read
  | some c =>
    simp only [stringBody] at read
    split at read
    · rename_i unit
      subst unit
      split at read
      · refine ⟨_, _, _, ⟨Nat.zero_le _, fun t enough => ?_, fun t enough => ?_⟩, read⟩
        · exact if_pos (hasBytes_of_le enough)
        · exact if_pos (hasBytes_of_le enough)
      · cases read
    · rename_i unit
      split at read
      · rename_i e escaped
        refine ⟨_, _, _, ⟨Nat.zero_le _, fun t _ => ?_, fun t _ => ?_⟩, read⟩
        · simp only [stringBody, unit, ↓reduceIte, escaped]
        · simp only [Place.skipped, skipString, unit, ↓reduceIte, escaped, Option.isSome_some]
      · cases read

theorem goesOn_unit {lead? : Option Nat} {left value : Nat}
    (read : stringBody (.unit lead? left value) clean acc (x :: s) = .ok (text, rest)) :
    GoesOn (.unit lead? left value) clean acc x s (text, rest) := by
  simp only [stringBody] at read
  split at read
  · cases read
  · rename_i d digit
    cases left with
    | succ left =>
      refine ⟨_, _, _, ⟨Nat.le_refl _, fun t _ => ?_, fun t _ => skipString_digit digit⟩, read⟩
      simp only [stringBody, digit]
    | zero =>
      cases lead? with
      | none =>
        simp only at read
        split at read
        · cases read
        · rename_i trailing
          split at read
          · rename_i leading
            refine ⟨_, _, _, ⟨Nat.le_refl _, fun t _ => ?_, fun t _ => skipString_digit digit⟩, read⟩
            simp only [stringBody, digit, trailing, leading, ↓reduceIte, Bool.false_eq_true]
          · rename_i leading
            refine ⟨_, _, _, ⟨Nat.le_refl _, fun t _ => ?_, fun t _ => skipString_digit digit⟩, read⟩
            simp only [stringBody, digit, trailing, leading, ↓reduceIte, Bool.false_eq_true]
      | some lead =>
        simp only at read
        split at read
        · rename_i trailing
          refine ⟨_, _, _, ⟨Nat.le_refl _, fun t _ => ?_, fun t _ => skipString_digit digit⟩, read⟩
          simp only [stringBody, digit, trailing, ↓reduceIte]
        · cases read

theorem goesOn_partner {lead : Nat}
    (read : stringBody (.partner lead) clean acc (x :: s) = .ok (text, rest)) :
    GoesOn (.partner lead) clean acc x s (text, rest) := by
  simp only [stringBody] at read
  split at read
  · rename_i backslash
    subst backslash
    exact ⟨_, _, _, ⟨Nat.zero_le _, fun _ _ => rfl, fun _ _ => rfl⟩, read⟩
  · cases read

theorem goesOn_partnerEscape {lead : Nat}
    (read : stringBody (.partnerEscape lead) clean acc (x :: s) = .ok (text, rest)) :
    GoesOn (.partnerEscape lead) clean acc x s (text, rest) := by
  simp only [stringBody] at read
  split at read
  · rename_i unit
    subst unit
    split at read
    · refine ⟨_, _, _, ⟨Nat.zero_le _, fun t enough => ?_, fun t enough => ?_⟩, read⟩
      · exact if_pos (hasBytes_of_le enough)
      · exact if_pos (hasBytes_of_le enough)
    · cases read
  · cases read

/-- A string that is read ends at a quote, or goes on behind a symbol. -/
theorem stringBody_cases (read : stringBody place clean acc (x :: s) = .ok (text, rest)) :
    (place = .plain ∧ x = some '"' ∧ rest = s ∧
        ∀ t, stringBody place clean acc (x :: t) = .ok (text, t)) ∨
      GoesOn place clean acc x s (text, rest) := by
  cases place with
  | plain =>
    cases x with
    | none => exact .inr ⟨_, _, _, ⟨Nat.zero_le _, fun _ _ => rfl, fun _ _ => rfl⟩, read⟩
    | some c =>
      simp only [stringBody] at read
      split at read
      · rename_i quote
        subst quote
        split at read
        · rename_i sound
          subst sound
          obtain ⟨rfl, rfl⟩ := Prod.mk.inj (Except.ok.inj read)
          exact .inl ⟨rfl, rfl, rfl, fun _ => rfl⟩
        · cases read
      · rename_i quote
        split at read
        · rename_i backslash
          subst backslash
          exact .inr ⟨_, _, _, ⟨Nat.zero_le _, fun _ _ => rfl, fun _ _ => rfl⟩, read⟩
        · rename_i backslash
          split at read
          · cases read
          · rename_i visible
            refine .inr ⟨_, _, _, ⟨Nat.zero_le _, fun t _ => ?_, fun t _ => ?_⟩, read⟩
            · simp only [stringBody, quote, backslash, visible, ↓reduceIte]
            · simp only [Place.skipped, skipString, quote, backslash, visible, ↓reduceIte]
  | escape => exact .inr (goesOn_escape read)
  | unit lead? left value => exact .inr (goesOn_unit read)
  | partner lead => exact .inr (goesOn_partner read)
  | partnerEscape lead => exact .inr (goesOn_partnerEscape read)

/-- A string is taken up to its closing quote, whatever follows, and is skipped up to there, too. -/
theorem stringBody_extent (read : stringBody place clean acc s = .ok (text, rest)) :
    ∃ taken, s = taken ++ rest ∧ place.owed ≤ taken.length ∧
      (∀ more, stringBody place clean acc (taken ++ more) = .ok (text, more)) ∧
      skipString place.skipped s = .ok rest := by
  induction s generalizing place clean acc with
  | nil => cases place <;> cases read
  | cons x s ih =>
    rcases stringBody_cases read with
      ⟨rfl, rfl, rfl, ends⟩ | ⟨next, clean', acc', leads, read⟩
    · exact ⟨[some '"'], rfl, Nat.zero_le _, ends, rfl⟩
    · obtain ⟨taken, rfl, enough, ends, skipped⟩ := ih read
      have owed := leads.owed
      refine ⟨x :: taken, rfl, ?_, fun more => ?_, ?_⟩
      · rw [List.length_cons]
        omega
      · rw [List.cons_append, leads.takes]
        · exact ends more
        · rw [List.length_append]
          omega
      · rw [leads.skips]
        · exact skipped
        · rw [List.length_append]
          omega

theorem stringToken_extent (read : stringToken s = .ok (text, rest)) :
    ∃ taken, s = taken ++ rest ∧ (∀ more, stringToken (taken ++ more) = .ok (text, more)) ∧
      skipString .plain s = .ok rest := by
  obtain ⟨taken, whole, -, ends, skipped⟩ := stringBody_extent read
  exact ⟨taken, whole, ends, skipped⟩

end Strings

section Numbers

variable {ended : Fault} {negative : Bool} {s rest : List Symbol} {digits : List Nat}

theorem someDigits_extent (read : someDigits ended s = .ok (digits, rest)) :
    (∀ ended, someDigits ended s = .ok (digits, rest)) ∧
      ∃ c taken, s = (c :: taken) ++ rest ∧ isDigit c = true ∧
        ∀ ended more, EndsBefore [] more →
          someDigits ended (c :: taken ++ more) = .ok (digits, more) := by
  cases s with
  | nil => cases read
  | cons c s =>
    rw [someDigits] at read
    split at read
    · rename_i first
      refine ⟨fun ended => by rw [someDigits, if_pos first]; exact read, ?_⟩
      obtain ⟨rfl, rfl⟩ := Prod.mk.inj (Except.ok.inj read)
      refine ⟨c, s.takeWhile isDigit, ?_, first, fun ended more ends => ?_⟩
      · rw [List.dropWhile_cons_of_pos first, List.cons_append, List.takeWhile_append_dropWhile]
      · have all : ∀ x ∈ c :: s.takeWhile isDigit, isDigit x = true :=
          List.forall_mem_cons.2 ⟨first, fun x found => List.mem_takeWhile_imp found⟩
        have stops : more.takeWhile isDigit = [] ∧ more.dropWhile isDigit = more := by
          cases more with
          | nil => exact ⟨rfl, rfl⟩
          | cons x more =>
            have stop := (endsBefore_cons.1 ends).1
            exact ⟨List.takeWhile_cons_of_neg (by simp [stop]),
              List.dropWhile_cons_of_neg (by simp [stop])⟩
        rw [List.cons_append, someDigits, if_pos first, ← List.cons_append, takeDigits,
          List.takeWhile_append_of_pos all, List.dropWhile_append_of_pos all, stops.1, stops.2,
          List.append_nil, List.takeWhile_cons_of_pos first]
    · cases read

theorem wholePart_extent (read : wholePart ended s = .ok (digits, rest)) :
    (∀ ended, wholePart ended s = .ok (digits, rest)) ∧
      ∃ c taken, s = (c :: taken) ++ rest ∧ isDigit c = true ∧
        ∀ ended more, EndsBefore [] more →
          wholePart ended (c :: taken ++ more) = .ok (digits, more) := by
  obtain ⟨⟨all, left⟩, found, alone⟩ := bind_eq_ok.1 read
  simp only at alone
  split at alone
  · cases alone
  · rename_i sound
    obtain ⟨rfl, rfl⟩ := Prod.mk.inj (Except.ok.inj alone)
    obtain ⟨any, c, taken, whole, first, takes⟩ := someDigits_extent found
    refine ⟨fun ended => ?_, c, taken, whole, first, fun ended more ends => ?_⟩
    · exact bind_eq_ok.2 ⟨_, any ended, if_neg sound⟩
    · exact bind_eq_ok.2 ⟨_, takes ended more ends, if_neg sound⟩

theorem fractionPart_extent {fraction : Option (List Nat)}
    (read : fractionPart ended s = .ok (fraction, rest)) :
    (∀ ended, fractionPart ended s = .ok (fraction, rest)) ∧
      ∃ taken, s = taken ++ rest ∧ (∀ c ∈ taken.head?, c = some '.') ∧
        ∀ ended more, EndsBefore ['.'] more →
          fractionPart ended (taken ++ more) = .ok (fraction, more) := by
  unfold fractionPart at read
  split at read
  · rename_i s
    obtain ⟨⟨digits, left⟩, found, done⟩ := bind_eq_ok.1 read
    obtain ⟨rfl, rfl⟩ := Prod.mk.inj (Except.ok.inj done)
    obtain ⟨any, c, taken, rfl, -, takes⟩ := someDigits_extent found
    refine ⟨fun ended => ?_, some '.' :: c :: taken, rfl, by simp, fun ended more ends => ?_⟩
    · exact bind_eq_ok.2 ⟨_, any ended, rfl⟩
    · exact bind_eq_ok.2 ⟨_, takes ended more (ends.mono (List.nil_subset _)), rfl⟩
  · rename_i bare
    obtain ⟨rfl, rfl⟩ := Prod.mk.inj (Except.ok.inj read)
    have none (ended : Fault) {more : List Symbol} (noPoint : ∀ t, more ≠ some '.' :: t) :
        fractionPart ended more = .ok (none, more) := by
      unfold fractionPart
      split
      · exact absurd rfl (noPoint _)
      · rfl
    refine ⟨fun ended => none ended fun t => bare t, [], rfl, nofun, fun ended more ends => ?_⟩
    refine none ended fun t same => ?_
    have ends : EndsBefore ['.'] (some '.' :: t) := same ▸ ends
    exact (endsBefore_cons.1 ends).2 (List.mem_singleton_self _)

theorem exponentSign_extent (s : List Symbol) :
    ∃ sign, s = sign ++ (exponentSign s).2 ∧ ∀ c more, isDigit c = true →
      exponentSign (sign ++ c :: more) = ((exponentSign s).1, c :: more) := by
  unfold exponentSign
  split
  · exact ⟨[some '-'], rfl, fun _ _ _ => rfl⟩
  · exact ⟨[some '+'], rfl, fun _ _ _ => rfl⟩
  · refine ⟨[], rfl, fun c more digit => ?_⟩
    rw [List.nil_append]
    split
    · rename_i same
      obtain ⟨rfl, -⟩ := List.cons.inj same
      cases digit
    · rename_i same
      obtain ⟨rfl, -⟩ := List.cons.inj same
      cases digit
    · rfl

/-- An exponent begins here. -/
def Marks (s : List Symbol) : Prop := ∃ c t, s = some c :: t ∧ (c = 'e' ∨ c = 'E')

theorem exponentPart_of_marks {c : Char} (mark : c = 'e' ∨ c = 'E') :
    exponentPart ended (some c :: s) =
      (someDigits ended (exponentSign s).2).map fun r => (some ((exponentSign s).1, r.1), r.2) := by
  rw [exponentPart, if_pos mark]
  obtain ⟨below, rest⟩ := exponentSign s
  simp only
  cases someDigits ended rest <;> rfl

theorem exponentPart_of_not_marks (bare : ¬ Marks s) : exponentPart ended s = .ok (none, s) := by
  unfold exponentPart
  split
  · exact if_neg fun mark => bare ⟨_, _, rfl, mark⟩
  · rfl

theorem EndsBefore.not_marks (ends : EndsBefore ['e', 'E'] s) : ¬ Marks s := by
  rintro ⟨c, t, rfl, rfl | rfl⟩
  · exact (endsBefore_cons.1 ends).2 (by simp)
  · exact (endsBefore_cons.1 ends).2 (by simp)

theorem exponentPart_extent {exponent : Option (Bool × List Nat)}
    (read : exponentPart ended s = .ok (exponent, rest)) :
    (∀ ended, exponentPart ended s = .ok (exponent, rest)) ∧
      ∃ taken, s = taken ++ rest ∧ (∀ c ∈ taken.head?, c = some 'e' ∨ c = some 'E') ∧
        ∀ ended more, EndsBefore ['e', 'E'] more →
          exponentPart ended (taken ++ more) = .ok (exponent, more) := by
  by_cases marks : Marks s
  · obtain ⟨c, t, rfl, mark⟩ := marks
    rw [exponentPart_of_marks mark] at read
    obtain ⟨⟨digits, left⟩, found, same⟩ := map_eq_ok.1 read
    obtain ⟨rfl, rfl⟩ := Prod.mk.inj same
    obtain ⟨any, d, taken, after, digit, takes⟩ := someDigits_extent found
    obtain ⟨sign, whole, signs⟩ := exponentSign_extent t
    rw [after] at whole
    refine ⟨fun ended => ?_, some c :: (sign ++ d :: taken), ?_, ?_, fun ended more ends => ?_⟩
    · rw [exponentPart_of_marks mark, any ended]
      rfl
    · simp [whole]
    · intro x first
      obtain rfl := Option.some.inj first
      exact mark.imp (congrArg some) (congrArg some)
    · have signed := signs d (taken ++ more) digit
      have next := takes ended more (ends.mono (List.nil_subset _))
      rw [List.cons_append, List.append_assoc, List.cons_append, exponentPart_of_marks mark, signed]
      rw [List.cons_append] at next
      rw [next]
      rfl
  · rw [exponentPart_of_not_marks marks] at read
    obtain ⟨rfl, rfl⟩ := Prod.mk.inj (Except.ok.inj read)
    refine ⟨fun ended => exponentPart_of_not_marks marks, [], rfl, nofun, fun ended more ends => ?_⟩
    exact exponentPart_of_not_marks ends.not_marks

/-- A literal reaches as far as it can, whatever its sign and whatever the fault at an early end. -/
theorem literal_extent {l : Literal} (read : literal ended negative s = .ok (l, rest)) :
    (∀ ended negative, literal ended negative s = .ok ({ l with negative }, rest)) ∧
      ∃ c taken, s = (c :: taken) ++ rest ∧ isDigit c = true ∧
        ∀ more, Ends more → literal ended negative (c :: taken ++ more) = .ok (l, more) := by
  obtain ⟨⟨whole, afterWhole⟩, readWhole, read⟩ := bind_eq_ok.1 read
  obtain ⟨⟨fraction, afterFraction⟩, readFraction, read⟩ := bind_eq_ok.1 read
  obtain ⟨⟨exponent, afterExponent⟩, readExponent, done⟩ := bind_eq_ok.1 read
  obtain ⟨rfl, rfl⟩ := Prod.mk.inj (Except.ok.inj done)
  obtain ⟨anyWhole, c, digits, rfl, first, takesWhole⟩ := wholePart_extent readWhole
  obtain ⟨anyFraction, point, rfl, pointed, takesFraction⟩ := fractionPart_extent readFraction
  obtain ⟨anyExponent, mark, rfl, marked, takesExponent⟩ := exponentPart_extent readExponent
  refine ⟨fun ended negative => ?_, c, digits ++ (point ++ mark), by simp, first,
    fun more ends => ?_⟩
  · exact bind_eq_ok.2 ⟨_, anyWhole ended, bind_eq_ok.2 ⟨_, anyFraction ended,
      bind_eq_ok.2 ⟨_, anyExponent ended, rfl⟩⟩⟩
  · have afterMark : EndsBefore ['e', 'E'] more := ends.mono (by decide)
    have afterPoint : EndsBefore ['.'] (mark ++ more) := by
      cases mark with
      | nil => exact ends.mono (by decide)
      | cons x mark =>
        refine endsBefore_cons.2 ?_
        rcases marked x rfl with rfl | rfl <;> decide
    have afterDigits : EndsBefore [] (point ++ (mark ++ more)) := by
      cases point with
      | nil => exact afterPoint.mono (List.nil_subset _)
      | cons x point =>
        obtain rfl := pointed x rfl
        exact endsBefore_cons.2 (by decide)
    have split : c :: (digits ++ (point ++ mark)) ++ more =
        c :: digits ++ (point ++ (mark ++ more)) := by simp
    rw [split]
    exact bind_eq_ok.2 ⟨_, takesWhole ended _ afterDigits, bind_eq_ok.2 ⟨_,
      takesFraction ended _ afterPoint, bind_eq_ok.2 ⟨_, takesExponent ended _ afterMark, rfl⟩⟩⟩

theorem numberToken_ok {n : Number} : numberToken negative s = .ok (n, rest) ↔
    ∃ l, literal .truncated negative s = .ok (l, rest) ∧ l.number? = some n := by
  unfold numberToken
  rw [bind_eq_ok]
  constructor
  · rintro ⟨⟨l, rest'⟩, read, known⟩
    cases number : l.number? with
    | none =>
      simp only [number] at known
      cases known
    | some m =>
      simp only [number] at known
      obtain ⟨rfl, rfl⟩ := Prod.mk.inj (Except.ok.inj known)
      exact ⟨l, read, number⟩
  · rintro ⟨l, read, number⟩
    exact ⟨(l, rest), read, by simp only [number]⟩

theorem numberToken_extent {n : Number} (read : numberToken negative s = .ok (n, rest)) :
    skipNumber s = .ok rest ∧
      ∃ c taken, s = (c :: taken) ++ rest ∧ isDigit c = true ∧
        ∀ more, Ends more → numberToken negative (c :: taken ++ more) = .ok (n, more) := by
  obtain ⟨l, found, number⟩ := numberToken_ok.1 read
  obtain ⟨any, c, taken, whole, first, takes⟩ := literal_extent found
  refine ⟨map_eq_ok.2 ⟨_, any .malformed false, rfl⟩, c, taken, whole, first, fun more ends => ?_⟩
  exact numberToken_ok.2 ⟨l, takes more ends, number⟩

end Numbers

end ChannelAgent.Json
