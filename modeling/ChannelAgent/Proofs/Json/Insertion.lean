import ChannelAgent.Proofs.Json.Buffering

set_option autoImplicit false

namespace ChannelAgent.Json

section Members

variable {α : Type} {item : Reader α} {first : Bool} {s t u v rest : List Symbol} {name : String} {x : α}
  {ms : List (String × α)}

theorem nextName_congr (same : skipSpace s = skipSpace t) : nextName first s = nextName first t := by
  simp only [nextName, same]

/-- White space in front of members does not matter. -/
theorem MembersRead.congr (same : skipSpace s = skipSpace t)
    (read : MembersRead item first s ms rest) : MembersRead item first t ms rest := by
  cases read with
  | closed close => exact .closed (same.symm.trans close)
  | member named joined here later =>
    exact .member ((nextName_congr same.symm).trans named) joined here later

theorem members_iff_of_member (named : nextName first s = .ok (some name, t))
    (joined : colon t = .ok u) (here : item u = .ok (x, v)) :
    MembersRead item first s ms rest ↔
      ∃ more, ms = (name, x) :: more ∧ MembersRead item false v more rest := by
  constructor
  · intro read
    cases read with
    | closed close => cases (nextName_none.2 close).symm.trans named
    | member named' joined' here' later =>
      obtain ⟨name_eq, rfl⟩ := Prod.mk.inj (Except.ok.inj (named.symm.trans named'))
      obtain rfl := Except.ok.inj (joined.symm.trans joined')
      obtain ⟨rfl, rfl⟩ := Prod.mk.inj (Except.ok.inj (here.symm.trans here'))
      obtain rfl := Option.some.inj name_eq
      exact ⟨_, rfl, later⟩
  · rintro ⟨more, rfl, later⟩
    exact .member named joined here later

theorem nextName_comma : nextName false (some ',' :: s) = .ok (some name, t) ↔
    nextName true s = .ok (some name, t) := by
  have comma : skipSpace (some ',' :: s) = some ',' :: s := skipSpace_cons_of_visible (by decide)
  constructor
  · intro named
    obtain ⟨t, u, comes, quote, read⟩ := nextName_some.1 named
    obtain ⟨-, rfl⟩ := List.cons.inj (comma.symm.trans comes)
    exact nextName_some.2 ⟨s, u, rfl, quote, read⟩
  · intro named
    obtain ⟨t, u, rfl, quote, read⟩ := nextName_some.1 named
    exact nextName_some.2 ⟨t, u, comma, quote, read⟩

/-- Behind a comma there is a member, read like the first one. -/
theorem members_iff_of_comma :
    MembersRead item false (some ',' :: s) ms rest ↔ ms ≠ [] ∧ MembersRead item true s ms rest := by
  constructor
  · intro read
    cases read with
    | closed close => cases (skipSpace_cons_of_visible (by decide)).symm.trans close
    | member named joined here later =>
      exact ⟨List.cons_ne_nil _ _, .member (nextName_comma.1 named) joined here later⟩
  · rintro ⟨some, read⟩
    cases read with
    | closed close => exact absurd rfl some
    | member named joined here later => exact .member (nextName_comma.2 named) joined here later

/-- Nothing but white space stands in front of the closing brace of no members. -/
theorem skipSpace_append_of_close {c : Symbol} (close : skipSpace (s ++ [c]) = c :: rest)
    (last : rest = []) : skipSpace (s ++ t) = skipSpace t := by
  obtain ⟨-, space, whole, -, skipped⟩ := skipSpace_extent close
  rw [last] at whole
  obtain ⟨rfl, -⟩ := List.append_inj' whole rfl
  exact skipped t

/-- What is read up to a closing brace is read as well when anything else follows, and then the
reader goes on with what follows. -/
theorem MembersRead.append_iff (items : Local item) {before : List (String × α)}
    (closed : MembersRead item first (s ++ [some '\x7d']) before [])
    (ends : before ≠ [] → Ends t) :
    MembersRead item first (s ++ t) ms rest ↔
      ∃ after, ms = before ++ after ∧ MembersRead item (first && before.isEmpty) t after rest := by
  generalize whole : s ++ [some '\x7d'] = u at closed
  generalize blank : ([] : List Symbol) = behind at closed
  induction closed generalizing s ms with
  | closed close =>
    rw [← whole] at close
    have same := skipSpace_append_of_close (t := t) close blank.symm
    simp only [List.nil_append, List.isEmpty_nil, Bool.and_true, exists_eq_left']
    exact ⟨.congr same, .congr same.symm⟩
  | @member first u v w x behind name y before named joined here later ih =>
    obtain ⟨joint, rfl, names⟩ := nextName_extent named
    obtain ⟨mark, rfl, joins⟩ := colon_extent joined
    obtain ⟨text, rfl, nonempty, takes⟩ := items here
    obtain ⟨front, rfl, rfl⟩ : ∃ front, x = front ++ [some '\x7d'] ∧
        s = joint ++ (mark ++ (text ++ front)) := by
      obtain ⟨taken, same, some, -⟩ := later.extent items
      rw [← blank, List.append_nil] at same
      obtain ⟨front, c, rfl⟩ := (List.eq_nil_or_concat' taken).resolve_left some
      rw [same, ← List.append_assoc text, ← List.append_assoc mark, ← List.append_assoc joint] at whole
      obtain ⟨rfl, last⟩ := List.append_inj' whole rfl
      exact ⟨front, by rw [same, List.cons.inj last |>.1], rfl⟩
    have goesOn : Ends (front ++ t) := by
      cases front with
      | nil => exact ends (List.cons_ne_nil _ _)
      | cons c front =>
        have more : c :: front ≠ [] := List.cons_ne_nil c front
        exact (ends_append more).2 ((ends_append more).1 later.ends)
    simp only [List.append_assoc]
    rw [members_iff_of_member (names _) (joins _) (takes _ goesOn)]
    simp only [ih (fun _ => ends (List.cons_ne_nil _ _)) rfl blank, List.isEmpty_cons,
      Bool.and_false, Bool.false_and, List.cons_append]
    constructor
    · rintro ⟨-, rfl, after, rfl, read⟩
      exact ⟨after, rfl, read⟩
    · rintro ⟨after, rfl, read⟩
      exact ⟨_, rfl, after, rfl, read⟩

/-- The first visible symbol is the given character. -/
def Shows (c : Char) (s : List Symbol) : Prop := (skipSpace s).head? = some (some c)

instance (c : Char) (s : List Symbol) : Decidable (Shows c s) := by
  unfold Shows
  infer_instance

theorem shows_iff {c : Char} : Shows c s ↔ ∃ t, skipSpace s = some c :: t :=
  List.head?_eq_some_iff

theorem Shows.ends {c : Char} (shows : Shows c s) (ends : Ends [some c]) : Ends s := by
  obtain ⟨t, visible⟩ := shows_iff.1 shows
  exact ends_of_skipSpace visible ends

/-- Members come to an end where a brace shows. -/
theorem MembersRead.shows_iff_nil (read : MembersRead item first s ms rest) :
    Shows '\x7d' s ↔ ms = [] := by
  cases read with
  | closed close => exact ⟨fun _ => rfl, fun _ => shows_iff.2 ⟨_, close⟩⟩
  | member named _ _ _ =>
    refine ⟨fun shows => ?_, nofun⟩
    obtain ⟨t, close⟩ := shows_iff.1 shows
    cases (nextName_none.2 close).symm.trans named

/-- Behind a member a comma shows or the closing brace. -/
theorem MembersRead.shows (read : MembersRead item false s ms rest) :
    Shows ',' s ∨ Shows '\x7d' s := by
  cases read with
  | closed close => exact .inr (shows_iff.2 ⟨_, close⟩)
  | member named _ _ _ =>
    obtain ⟨t, u, comes, -⟩ := nextName_some.1 named
    exact .inl (shows_iff.2 ⟨t, comes⟩)

/-- A text of members can be parted behind each of them. -/
theorem MembersRead.split (items : Local item) {before after : List (String × α)}
    (nonempty : before ≠ []) (read : MembersRead item first s (before ++ after) rest) :
    ∃ front back, s = front ++ back ∧ MembersRead item first (front ++ [some '\x7d']) before [] ∧
      (Shows ',' back ∨ Shows '\x7d' back) := by
  induction before generalizing first s with
  | nil => exact absurd rfl nonempty
  | cons m before ih =>
    cases read with
    | @member _ _ t u v _ name x _ named joined here later =>
      obtain ⟨joint, rfl, names⟩ := nextName_extent named
      obtain ⟨mark, rfl, joins⟩ := colon_extent joined
      obtain ⟨text, rfl, nonempty, takes⟩ := items here
      have behind {front : List Symbol}
          (read : MembersRead item false (front ++ [some '\x7d']) before []) :
          MembersRead item first (joint ++ (mark ++ (text ++ front)) ++ [some '\x7d'])
            ((name, x) :: before) [] := by
        simp only [List.append_assoc]
        exact .member (names _) (joins _) (takes _ read.ends) read
      cases before with
      | nil =>
        have close : MembersRead item false ([] ++ [some '\x7d']) ([] : List (String × α)) [] :=
          .closed rfl
        refine ⟨joint ++ (mark ++ (text ++ [])), v, by simp, behind close, later.shows⟩
      | cons m before =>
        obtain ⟨front, back, rfl, read, shows⟩ := ih (List.cons_ne_nil m before) later
        exact ⟨joint ++ (mark ++ (text ++ front)), back, by simp, behind read, shows⟩

end Members

section Objects

variable {first : Bool} {front back s : List Symbol} {before ms : List (String × Value)}

/-- Members up to the closing brace of an object that is a whole text. -/
def Completes (first : Bool) (s : List Symbol) (ms : List (String × Value)) : Prop :=
  ∃ rest, MembersRead (value 126) first s ms rest ∧ skipSpace rest = []

/-- The text in front of a place holds the first members, and what follows the others. -/
theorem parse_append (closes : Decoder.any.parse (front ++ [some '\x7d']) = .ok (.object before))
    (ends : before ≠ [] → Ends back) : Decoder.any.parse (front ++ back) = .ok (.object ms) ↔
      ∃ after, ms = before ++ after ∧ Completes before.isEmpty back after := by
  obtain ⟨t, visible, rest, read, blank⟩ := parse_object_iff.1 closes
  obtain ⟨-, space, whole, -, skipped⟩ := skipSpace_extent visible
  obtain ⟨taken, rfl, nonempty, -⟩ := read.extent (value_local 126)
  -- the brace is the last symbol, so nothing stands behind the object
  obtain rfl : rest = [] := by
    rcases List.eq_nil_or_concat' rest with none | ⟨init, c, rfl⟩
    · exact none
    · have spaces := List.dropWhile_eq_nil_iff.1 blank c (by simp)
      rw [← List.append_assoc, ← List.cons_append, ← List.append_assoc] at whole
      obtain ⟨-, last⟩ := List.append_inj' whole rfl
      rw [← (List.cons.inj last).1] at spaces
      cases spaces
  obtain ⟨body, c, rfl⟩ := (List.eq_nil_or_concat' taken).resolve_left nonempty
  rw [List.append_nil, ← List.cons_append, ← List.append_assoc] at whole
  obtain ⟨rfl, last⟩ := List.append_inj' whole rfl
  rw [List.append_nil, ← (List.cons.inj last).1] at read
  have opened : skipSpace (space ++ some '\x7b' :: body ++ back) = some '\x7b' :: (body ++ back) := by
    rw [List.append_assoc, skipped]
    exact skipSpace_cons_of_visible (by decide)
  simp only [parse_object_iff, opened, List.cons.injEq, true_and, exists_eq_left', Completes,
    read.append_iff (value_local 126) ends, Bool.true_and]
  constructor
  · rintro ⟨rest, ⟨after, rfl, read⟩, blank⟩
    exact ⟨after, rfl, rest, read, blank⟩
  · rintro ⟨after, rfl, rest, read, blank⟩
    exact ⟨rest, ⟨after, rfl, read⟩, blank⟩

theorem Completes.congr {t : List Symbol} (same : skipSpace s = skipSpace t)
    (completes : Completes first s ms) : Completes first t ms := by
  obtain ⟨rest, read, blank⟩ := completes
  exact ⟨rest, read.congr same, blank⟩

theorem Completes.shows_iff_nil (completes : Completes first s ms) : Shows '\x7d' s ↔ ms = [] := by
  obtain ⟨rest, read, -⟩ := completes
  exact read.shows_iff_nil

/-- No members are completed by a brace, whether or not some came before. -/
theorem Completes.of_nil {first' : Bool} (completes : Completes first s []) :
    Completes first' s [] := by
  obtain ⟨rest, read, blank⟩ := completes
  cases read with
  | closed close => exact ⟨rest, .closed close, blank⟩

theorem completes_comma :
    Completes false (some ',' :: s) ms ↔ ms ≠ [] ∧ Completes true s ms := by
  simp only [Completes, members_iff_of_comma, and_assoc, exists_and_left]

theorem ends_comma : Ends (some ',' :: s) := endsBefore_cons.2 (by decide)

/-- The text of a member, as it may stand alone in an object, is the first of several members as
well. -/
theorem completes_member {member : List Symbol} {m : String × Value}
    (single : Decoder.any.parse (some '\x7b' :: member ++ [some '\x7d']) = .ok (.object [m]))
    (ends : Ends back) (completes : Completes false back ms) :
    Completes true (member ++ back) (m :: ms) := by
  have whole := (parse_append single fun _ => ends).2 ⟨ms, rfl, completes⟩
  have opened : Decoder.any.parse ([some '\x7b'] ++ [some '\x7d']) = .ok (.object []) :=
    parse_object_iff.2 ⟨_, rfl, [], .closed rfl, rfl⟩
  obtain ⟨after, same, completes⟩ := (parse_append opened fun none => absurd rfl none).1 whole
  rw [List.nil_append, List.singleton_append] at same
  rwa [same]

end Objects

/-- The first visible character of a text is the given one. -/
def Leading (c : Char) (text : String) : Prop := Shows c (text.toList.map some)

instance (c : Char) (text : String) : Decidable (Leading c text) := by
  unfold Leading
  infer_instance

/-- A member is put into the text of an object behind the first members of it, with the comma that
has to be added. -/
inductive Inserted (member : String) : (before : List (String × Value)) → String → String → Prop
  /-- Into an object without members. -/
  | only {front back : String}
      (opened : Decoder.any.parseText (front ++ "\x7d") = .ok (.object []))
      (closed : Leading '\x7d' back) :
      Inserted member [] (front ++ back) (front ++ member ++ back)
  /-- In front of the first member. -/
  | ahead {front back : String}
      (opened : Decoder.any.parseText (front ++ "\x7d") = .ok (.object []))
      (more : ¬ Leading '\x7d' back) :
      Inserted member [] (front ++ back) (front ++ member ++ "," ++ back)
  /-- Behind some member, in front of the comma or the brace that follows it. -/
  | behind {front back : String} {before : List (String × Value)}
      (closes : Decoder.any.parseText (front ++ "\x7d") = .ok (.object before))
      (some : before ≠ []) (joint : Leading ',' back ∨ Leading '\x7d' back) :
      Inserted member before (front ++ back) (front ++ "," ++ member ++ back)
  /-- Behind the comma that follows some member. -/
  | between {front space back : String} {before : List (String × Value)}
      (closes : Decoder.any.parseText (front ++ "\x7d") = .ok (.object before))
      (some : before ≠ []) (blank : ∀ c ∈ space.toList, isSpace c = true) :
      Inserted member before (front ++ "," ++ space ++ back)
        (front ++ "," ++ space ++ member ++ "," ++ back)

section Texts

variable {member text text' : String} {m : String × Value} {before ms : List (String × Value)}

theorem parseText_closed {α : Type} {d : Decoder α} (front : String) :
    d.parseText (front ++ "\x7d") = d.parse (front.toList.map some ++ [some '\x7d']) := by
  rw [Decoder.parseText, String.toList_append, List.map_append]
  rfl

theorem skipSpace_blank {space : String} (blank : ∀ c ∈ space.toList, isSpace c = true)
    (s : List Symbol) : skipSpace (space.toList.map some ++ s) = skipSpace s :=
  List.dropWhile_append_of_pos (by simpa using blank)

/-- The object of the new text has the members of the old one and the new member among them. -/
theorem Inserted.parseText (inserted : Inserted member before text text')
    (single : Decoder.any.parseText ("\x7b" ++ member ++ "\x7d") = .ok (.object [m]))
    (parsed : Decoder.any.parseText text = .ok (.object ms)) :
    ∃ after, ms = before ++ after ∧
      Decoder.any.parseText text' = .ok (.object (before ++ m :: after)) := by
  have comma (s : List Symbol) : ",".toList.map some ++ s = some ',' :: s := rfl
  rw [parseText_closed, String.toList_append, List.map_append] at single
  cases inserted with
  | only opened closed =>
    rw [parseText_closed] at opened
    simp only [Decoder.parseText, String.toList_append, List.map_append, List.append_assoc]
      at parsed ⊢
    obtain ⟨after, rfl, completes⟩ := (parse_append opened fun none => absurd rfl none).1 parsed
    obtain rfl := completes.shows_iff_nil.1 closed
    refine ⟨[], rfl, (parse_append opened fun none => absurd rfl none).2 ⟨[m], rfl, ?_⟩⟩
    exact completes_member single (closed.ends (by decide)) completes.of_nil
  | ahead opened more =>
    rw [parseText_closed] at opened
    simp only [Decoder.parseText, String.toList_append, List.map_append, List.append_assoc, comma]
      at parsed ⊢
    obtain ⟨after, rfl, completes⟩ := (parse_append opened fun none => absurd rfl none).1 parsed
    refine ⟨ms, rfl, (parse_append opened fun none => absurd rfl none).2 ⟨m :: ms, rfl, ?_⟩⟩
    refine completes_member single ends_comma (completes_comma.2 ⟨?_, completes⟩)
    exact fun none => more (completes.shows_iff_nil.2 none)
  | behind closes nonempty joint =>
    rw [parseText_closed] at closes
    simp only [Decoder.parseText, String.toList_append, List.map_append, List.append_assoc, comma]
      at parsed ⊢
    have ends := joint.elim (fun shows => shows.ends (by decide)) fun shows => shows.ends (by decide)
    obtain ⟨after, rfl, completes⟩ := (parse_append closes fun _ => ends).1 parsed
    refine ⟨after, rfl, (parse_append closes fun _ => ends_comma).2 ⟨m :: after, rfl, ?_⟩⟩
    rw [List.isEmpty_eq_false_iff.2 nonempty] at completes ⊢
    exact completes_comma.2 ⟨List.cons_ne_nil _ _, completes_member single ends completes⟩
  | between closes nonempty blank =>
    rw [parseText_closed] at closes
    simp only [Decoder.parseText, String.toList_append, List.map_append, List.append_assoc, comma]
      at parsed ⊢
    obtain ⟨after, rfl, completes⟩ := (parse_append closes fun _ => ends_comma).1 parsed
    refine ⟨after, rfl, (parse_append closes fun _ => ends_comma).2 ⟨m :: after, rfl, ?_⟩⟩
    rw [List.isEmpty_eq_false_iff.2 nonempty] at completes ⊢
    obtain ⟨more, completes⟩ := completes_comma.1 completes
    have later := completes_comma.2 ⟨more, completes.congr (skipSpace_blank blank _)⟩
    refine completes_comma.2 ⟨List.cons_ne_nil _ _, ?_⟩
    exact (completes_member single ends_comma later).congr (skipSpace_blank blank _).symm

/-- There is a place behind each of the members, and one in front of them. -/
theorem exists_inserted (member : String) {after : List (String × Value)}
    (parsed : Decoder.any.parseText text = .ok (.object (before ++ after))) :
    ∃ text', Inserted member before text text' := by
  obtain ⟨t, visible, rest, read, blank⟩ := parse_object_iff.1 parsed
  obtain ⟨-, space, whole, -, skipped⟩ := skipSpace_extent visible
  -- the text falls into characters where its symbols do
  have parts (front back : List Symbol) (whole : text.toList.map some = front ++ back) :
      ∃ front' back' : String, text = front' ++ back' ∧ front'.toList.map some = front ∧
        back'.toList.map some = back := by
    obtain ⟨f, b, both, rfl, rfl⟩ := List.map_eq_append_iff.1 whole
    refine ⟨String.ofList f, String.ofList b, ?_, by simp, by simp⟩
    rw [← String.ofList_append, ← both, String.ofList_toList]
  by_cases none : before = []
  · subst none
    obtain ⟨front, back, rfl, front_eq, back_eq⟩ :=
      parts (space ++ [some '\x7b']) t (by simp [whole])
    have opened : Decoder.any.parseText (front ++ "\x7d") = .ok (.object []) := by
      rw [parseText_closed, front_eq, List.append_assoc]
      refine parse_object_iff.2 ⟨[some '\x7d'], ?_, [], .closed rfl, rfl⟩
      rw [skipped]
      rfl
    by_cases closed : Leading '\x7d' back
    · exact ⟨_, .only opened closed⟩
    · exact ⟨_, .ahead opened closed⟩
  · obtain ⟨body, tail, rfl, read, joint⟩ := read.split (value_local 126) none
    obtain ⟨front, back, rfl, front_eq, back_eq⟩ :=
      parts (space ++ some '\x7b' :: body) tail (by simp [whole])
    refine ⟨_, Inserted.behind ?_ none (by simpa only [Leading, back_eq])⟩
    rw [parseText_closed, front_eq, List.append_assoc]
    refine parse_object_iff.2 ⟨body ++ [some '\x7d'], ?_, [], read, rfl⟩
    rw [skipped]
    exact skipSpace_cons_of_visible (by decide)

end Texts

end ChannelAgent.Json
