import ChannelAgent.Json.Printer
import ChannelAgent.Json.Variant

set_option autoImplicit false

namespace ChannelAgent.Json

/-- A reader takes a text for a value, whatever follows the text. -/
def Reads {α : Type} (read : Reader α) (text : List Char) (x : α) : Prop :=
  ∀ rest, read (text.map some ++ rest) = .ok (x, rest)

theorem hexValue_hexDigit {n : Nat} (small : n < 16) : hexValue? (some (hexDigit n)) = some n := by
  have all : ∀ n < 16, hexValue? (some (hexDigit n)) = some n := by decide
  exact all n small

theorem hasBytes_of_le {n : Nat} {s : List Symbol} (enough : n ≤ s.length) :
    Utf8.hasBytes n s = true := by
  induction s generalizing n with
  | nil =>
    obtain rfl : n = 0 := by simpa using enough
    rfl
  | cons x rest ih =>
    cases n with
    | zero => rfl
    | succ n =>
      have wide : 1 ≤ Utf8.width x := by
        cases x with
        | none => exact Nat.le_refl 1
        | some c => exact c.utf8Size_pos
      rw [List.length_cons] at enough
      exact ih (by omega)

section Strings

variable {clean : Bool} {acc : List Char} {s : Symbol} {rest : List Symbol}

theorem stringBody_backslash :
    stringBody .plain clean acc (some '\\' :: rest) = stringBody .escape clean acc rest := rfl

theorem stringBody_plain {c : Char} (noQuote : c ≠ '"') (noBackslash : c ≠ '\\')
    (visible : 0x20 ≤ c.toNat) :
    stringBody .plain clean acc (some c :: rest) = stringBody .plain clean (c :: acc) rest := by
  have control : ¬ c.toNat < 0x20 := Nat.not_lt.2 visible
  simp only [stringBody, noQuote, noBackslash, control, ↓reduceIte]

theorem stringBody_escape {c e : Char} (escaped : escaped? e = some c) :
    stringBody .plain clean acc (some '\\' :: some e :: rest) =
      stringBody .plain clean (c :: acc) rest := by
  have noUnit : e ≠ 'u' := by
    rintro rfl
    cases escaped
  rw [stringBody_backslash]
  simp only [stringBody, noUnit, escaped, ↓reduceIte]

theorem stringBody_unit (enough : 4 ≤ rest.length) :
    stringBody .escape clean acc (some 'u' :: rest) =
      stringBody (.unit none 3 0) clean acc rest := by
  simp only [stringBody, hasBytes_of_le enough, ↓reduceIte]

theorem stringBody_digit {lead? : Option Nat} {left value d : Nat} (digit : hexValue? s = some d) :
    stringBody (.unit lead? (left + 1) value) clean acc (s :: rest) =
      stringBody (.unit lead? left (value * 16 + d)) clean acc rest := by
  simp only [stringBody, digit]

/-- The last digit of a code unit that is no surrogate. -/
theorem stringBody_lastDigit {value d : Nat} (digit : hexValue? s = some d)
    (noLead : isLeading (value * 16 + d) = false) (noTrail : isTrailing (value * 16 + d) = false) :
    stringBody (.unit none 0 value) clean acc (s :: rest) =
      stringBody .plain clean (Char.ofNat (value * 16 + d) :: acc) rest := by
  simp only [stringBody, digit, noLead, noTrail, Bool.false_eq_true, ↓reduceIte]

theorem unpaired_of_lt {unit : Nat} (low : unit < 0xD800) :
    isLeading unit = false ∧ isTrailing unit = false := by
  simp only [isTrailing, isLeading, Bool.and_eq_false_iff, decide_eq_false_iff_not]
  omega

/-- A control character is read back from its code unit. -/
theorem stringBody_control {c : Char} (control : c.toNat < 0x20) :
    stringBody .plain clean acc
        (['\\', 'u', '0', '0', hexDigit (c.toNat / 16), hexDigit (c.toNat % 16)].map some ++
          rest) =
      stringBody .plain clean (c :: acc) rest := by
  have zero : hexValue? (some '0') = some 0 := rfl
  have high := hexValue_hexDigit (n := c.toNat / 16) (by omega)
  have low := hexValue_hexDigit (n := c.toNat % 16) (by omega)
  have unit : ((0 * 16 + 0) * 16 + 0) * 16 + c.toNat / 16 = c.toNat / 16 := by omega
  have whole : c.toNat / 16 * 16 + c.toNat % 16 = c.toNat := by omega
  have small : c.toNat / 16 * 16 + c.toNat % 16 < 0xD800 := by omega
  obtain ⟨noLead, noTrail⟩ := unpaired_of_lt small
  simp only [List.map_cons, List.map_nil, List.cons_append, List.nil_append]
  rw [stringBody_backslash, stringBody_unit (by simp), stringBody_digit zero,
    stringBody_digit zero, stringBody_digit high, unit, stringBody_lastDigit low noLead noTrail,
    whole, Char.ofNat_toNat]

/-- A character is written behind a backslash, as a code unit or as it is. -/
theorem escapeChar_cases (c : Char) :
    (∃ e, escapeChar c = ['\\', e] ∧ escaped? e = some c) ∨
      (c.toNat < 0x20 ∧ escapeChar c =
        ['\\', 'u', '0', '0', hexDigit (c.toNat / 16), hexDigit (c.toNat % 16)]) ∨
      (c ≠ '"' ∧ c ≠ '\\' ∧ 0x20 ≤ c.toNat ∧ escapeChar c = [c]) := by
  by_cases short : c ∈ ['"', '\\', '\x08', '\t', '\n', '\x0c', '\r']
  · simp only [List.mem_cons, List.not_mem_nil, or_false] at short
    rcases short with rfl | rfl | rfl | rfl | rfl | rfl | rfl <;> exact .inl ⟨_, rfl, rfl⟩
  · simp only [List.mem_cons, List.not_mem_nil, or_false, not_or] at short
    obtain ⟨quote, backslash, backspace, tab, lineFeed, formFeed, carriageReturn⟩ := short
    simp only [escapeChar, quote, backslash, backspace, tab, lineFeed, formFeed, carriageReturn,
      ↓reduceIte]
    by_cases control : c.toNat < 0x20
    · exact .inr (.inl ⟨control, if_pos control⟩)
    · exact .inr (.inr ⟨quote, backslash, Nat.le_of_not_lt control, if_neg control⟩)

theorem stringBody_escapeChar (c : Char) :
    stringBody .plain clean acc ((escapeChar c).map some ++ rest) =
      stringBody .plain clean (c :: acc) rest := by
  obtain ⟨e, written, escaped⟩ | ⟨control, written⟩ | ⟨quote, backslash, visible, written⟩ :=
    escapeChar_cases c
  · rw [written]
    exact stringBody_escape escaped
  · rw [written]
    exact stringBody_control control
  · rw [written]
    exact stringBody_plain quote backslash visible

/-- The characters of a string are read back up to its closing quote. -/
theorem stringBody_escaped (text : List Char) :
    stringBody .plain true acc ((text.flatMap escapeChar).map some ++ some '"' :: rest) =
      .ok (String.ofList (acc.reverse ++ text), rest) := by
  induction text generalizing acc with
  | nil => simp [stringBody]
  | cons c text ih =>
    rw [List.flatMap_cons, List.map_append, List.append_assoc, stringBody_escapeChar, ih]
    simp

end Strings

theorem stringToken_escaped (text : String) (rest : List Symbol) :
    stringToken ((text.toList.flatMap escapeChar).map some ++ some '"' :: rest) =
      .ok (text, rest) := by
  rw [stringToken, stringBody_escaped]
  simp

theorem map_quoteString (text : String) (rest : List Symbol) :
    (quoteString text).map some ++ rest =
      some '"' :: ((text.toList.flatMap escapeChar).map some ++ some '"' :: rest) := by
  simp [quoteString]

theorem reads_string (depth : Nat) (text : String) :
    Reads (Decoder.string.read depth) (quoteString text) text := by
  intro rest
  rw [map_quoteString]
  exact stringToken_escaped text rest

theorem reads_token_string (list object : Reader Value) (text : String) :
    Reads (token list object) (quoteString text) (.string text) := by
  intro rest
  rw [map_quoteString]
  change (stringToken _).map (fun r => (Value.string r.1, r.2)) = _
  rw [stringToken_escaped]
  rfl

theorem reads_token_bool (list object : Reader Value) (b : Bool) :
    Reads (token list object) (writeBool b) (.bool b) := by
  intro rest
  cases b <;> rfl

theorem reads_value_string (depth : Nat) (text : String) :
    Reads (value depth) (quoteString text) (.string text) := by
  cases depth <;> exact reads_token_string _ _ text

theorem reads_value_bool (depth : Nat) (b : Bool) :
    Reads (value depth) (writeBool b) (.bool b) := by
  cases depth <;> exact reads_token_bool _ _ b

def joint (first : Bool) : List Char := if first then [] else [',']

/-- The text of an object from its next member on. -/
def writeMembers : (first : Bool) → List (String × List Char) → List Char
  | _, [] => ['\x7d']
  | first, m :: rest => joint first ++ quoteString m.1 ++ ':' :: m.2 ++ writeMembers false rest

def memberText (m : String × List Char) : List Char := quoteString m.1 ++ ':' :: m.2

theorem commaSeparated_members (m : String × List Char) (ms : List (String × List Char)) :
    commaSeparated ((m :: ms).map memberText) ++ ['\x7d'] =
      memberText m ++ writeMembers false ms := by
  induction ms generalizing m with
  | nil => rfl
  | cons next ms ih =>
    change memberText m ++ ',' :: commaSeparated ((next :: ms).map memberText) ++ ['\x7d'] = _
    rw [List.append_assoc, List.cons_append, ih]
    simp [writeMembers, joint, memberText]

theorem writeObject_eq (ms : List (String × List Char)) :
    writeObject ms = '\x7b' :: writeMembers true ms := by
  cases ms with
  | nil => rfl
  | cons m ms => exact congrArg (List.cons '\x7b') (commaSeparated_members m ms)

theorem length_writeMembers (first : Bool) (ms : List (String × List Char)) :
    ms.length < (writeMembers first ms).length := by
  induction ms generalizing first with
  | nil => simp [writeMembers]
  | cons m ms ih =>
    have later := ih false
    simp only [writeMembers, List.length_append, List.length_cons]
    omega

/-- The symbols of an object from its next member on. -/
def memberSymbols (first : Bool) (ms : List (String × List Char)) (rest : List Symbol) :
    List Symbol :=
  (writeMembers first ms).map some ++ rest

theorem nextName_close (first : Bool) (rest : List Symbol) :
    nextName first (memberSymbols first [] rest) = .ok (none, rest) := by
  cases first <;> rfl

/-- A reader that looks for the next member finds its name, then the colon and its text. -/
theorem nextName_member (first : Bool) (name : String) (text : List Char)
    (ms : List (String × List Char)) (rest : List Symbol) :
    nextName first (memberSymbols first ((name, text) :: ms) rest) =
      .ok (some name, some ':' :: (text.map some ++ memberSymbols false ms rest)) := by
  have symbols : memberSymbols first ((name, text) :: ms) rest =
      (joint first).map some ++ some '"' :: ((name.toList.flatMap escapeChar).map some ++
        some '"' :: some ':' :: (text.map some ++ memberSymbols false ms rest)) := by
    simp [memberSymbols, writeMembers, quoteString]
  rw [symbols]
  cases first with
  | true =>
    change (stringToken _).map (fun r => (some r.1, r.2)) = _
    rw [stringToken_escaped]
    rfl
  | false =>
    change (stringToken _).map (fun r => (some r.1, r.2)) = _
    rw [stringToken_escaped]
    rfl

theorem colon_eq (rest : List Symbol) : colon (some ':' :: rest) = .ok rest := rfl

section Loops

variable {α : Type} {item : Reader α}

/-- Members with their texts and values are read one by one. -/
theorem members_written {written : List (String × List Char × α)}
    (reads : ∀ w ∈ written, Reads item w.2.1 w.2.2) (first : Bool) (acc : List (String × α))
    {bound : List Symbol} (enough : written.length < bound.length) (rest : List Symbol) :
    members item first acc bound (memberSymbols first (written.map fun w => (w.1, w.2.1)) rest) =
      .ok (acc.reverse ++ written.map fun w => (w.1, w.2.2), rest) := by
  induction written generalizing first acc bound with
  | nil =>
    cases bound with
    | nil => cases enough
    | cons b bound =>
      rw [List.map_nil, members, nextName_close]
      simp
  | cons w written ih =>
    cases bound with
    | nil => cases enough
    | cons b bound =>
      obtain ⟨here, later⟩ := List.forall_mem_cons.1 reads
      rw [List.length_cons, List.length_cons] at enough
      rw [List.map_cons, members, nextName_member]
      simp only [colon_eq, here _]
      rw [ih later false _ (by omega)]
      simp

theorem objectOf_written {written : List (String × List Char × α)}
    (reads : ∀ w ∈ written, Reads item w.2.1 w.2.2) (rest : List Symbol) :
    objectOf item (memberSymbols true (written.map fun w => (w.1, w.2.1)) rest) =
      .ok (written.map fun w => (w.1, w.2.2), rest) := by
  have shorter := length_writeMembers true (written.map fun w => (w.1, w.2.1))
  refine members_written reads true [] ?_ rest
  rw [List.length_map] at shorter
  simp only [memberSymbols, List.length_cons, List.length_append, List.length_map]
  omega

end Loops

theorem map_writeObject (ms : List (String × List Char)) (rest : List Symbol) :
    (writeObject ms).map some ++ rest = some '\x7b' :: memberSymbols true ms rest := by
  rw [writeObject_eq]
  rfl

/-- An object is buffered with the values of its members. -/
theorem reads_value_object {depth : Nat} (written : List (String × List Char × Value))
    (reads : ∀ w ∈ written, Reads (value depth) w.2.1 w.2.2) :
    Reads (value (depth + 1)) (writeObject (written.map fun w => (w.1, w.2.1)))
      (.object (written.map fun w => (w.1, w.2.2))) := by
  intro rest
  rw [map_writeObject]
  change (objectOf (value depth) _).map (fun r => (Value.object r.1, r.2)) = _
  rw [objectOf_written reads]
  rfl

section Decoders

variable {α β σ : Type} {depth : Nat} {text : List Char}

theorem reads_refine {d : Decoder α} {f : α → Option β} {x : α} {y : β}
    (reads : Reads (d.read depth) text x) (known : f x = some y) :
    Reads ((d.refine f).read depth) text y := by
  intro rest
  simp only [Decoder.refine, reads rest, known]

theorem reads_storing {name : String} {d : Decoder α} {store : α → σ → σ} {x : α}
    (reads : Reads (d.read depth) text x) :
    Reads ((Field.storing name d store).decoder.read depth) text (store x) :=
  reads_refine (f := fun x => some (store x)) reads rfl

theorem reads_orLacking {f : Field σ} {store : σ → σ}
    (reads : Reads (f.decoder.read depth) text store) :
    Reads (f.orLacking.decoder.read depth) text store :=
  reads

/-- An optional object is there. -/
theorem reads_optional {d : Decoder α} {x : α} {ms : List (String × List Char)}
    (reads : Reads (d.read depth) (writeObject ms) x) :
    Reads (d.optional.read depth) (writeObject ms) (some x) := by
  intro rest
  have present := reads rest
  rw [map_writeObject] at present ⊢
  change (d.read depth _).map (fun r => (some r.1, r.2)) = _
  rw [present]
  rfl

theorem reads_dictionary {d : Decoder α} (written : List (String × List Char × α))
    (reads : ∀ w ∈ written, Reads (d.read depth) w.2.1 w.2.2) :
    Reads (d.dictionary.read (depth + 1)) (writeObject (written.map fun w => (w.1, w.2.1)))
      (written.map fun w => (w.1, w.2.2)) := by
  intro rest
  rw [map_writeObject]
  exact objectOf_written reads rest

/-- The members are fields of a record, none of them twice, and fill it with a value. -/
def Fills (r : Record σ α) (depth : Nat) :
    (seen : List String) → σ → List (String × List Char) → α → Prop
  | _, state, [], x => r.finish state = some x
  | seen, state, m :: ms, x =>
    ∃ f store, r.field? m.1 = some f ∧ m.1 ∉ seen ∧ Reads (f.decoder.read depth) m.2 store ∧
      Fills r depth (m.1 :: seen) (store state) ms x

theorem readMembers_written {r : Record σ α} {ms : List (String × List Char)} {x : α}
    (first : Bool) {seen : List String} {state : σ} (fills : Fills r depth seen state ms x)
    {bound : List Symbol} (enough : ms.length < bound.length) (rest : List Symbol) :
    r.readMembers depth first seen state bound (memberSymbols first ms rest) = .ok (x, rest) := by
  induction ms generalizing first seen state bound with
  | nil =>
    cases bound with
    | nil => cases enough
    | cons b bound =>
      have done : r.finish state = some x := fills
      rw [Record.readMembers, nextName_close]
      simp only [done]
  | cons m ms ih =>
    cases bound with
    | nil => cases enough
    | cons b bound =>
      obtain ⟨f, store, known, fresh, here, later⟩ := fills
      rw [List.length_cons, List.length_cons] at enough
      rw [Record.readMembers, nextName_member]
      simp only [known, if_neg fresh, colon_eq, here _]
      exact ih false later (by omega)

/-- A record is read from the object of its members. -/
theorem reads_record {r : Record σ α} {ms : List (String × List Char)} {x : α}
    (fills : Fills r depth [] r.initial ms x) :
    Reads (r.decoder.read (depth + 1)) (writeObject ms) x := by
  intro rest
  have shorter := length_writeMembers true ms
  rw [map_writeObject]
  refine readMembers_written true fills ?_ rest
  simp only [memberSymbols, List.length_cons, List.length_append, List.length_map]
  omega

/-- A buffered member is a field of the record that was not read before. -/
theorem ofMembers_field {r : Record σ α} {f : Field σ} {store : σ → σ} {name : String} {v : Value}
    {seen : List String} (state : σ) (rest : List (String × Value))
    (known : r.field? name = some f) (fresh : name ∉ seen)
    (decoded : f.decoder.ofValue? v = some store) :
    r.ofMembers? seen state ((name, v) :: rest) =
      r.ofMembers? (name :: seen) (store state) rest := by
  simp only [Record.ofMembers?, known, if_neg fresh, decoded]

theorem ofValue_refine {d : Decoder α} {f : α → Option β} {v : Value} {x : α} {y : β}
    (decoded : d.ofValue? v = some x) (known : f x = some y) :
    (d.refine f).ofValue? v = some y := by
  simp only [Decoder.refine, decoded, Option.bind_some, known]

theorem ofValue_storing {name : String} {d : Decoder α} {store : α → σ → σ} {v : Value} {x : α}
    (decoded : d.ofValue? v = some x) :
    (Field.storing name d store).decoder.ofValue? v = some (store x) :=
  ofValue_refine (f := fun x => some (store x)) decoded rfl

theorem ofValue_orLacking {f : Field σ} {store : σ → σ} {v : Value}
    (decoded : f.decoder.ofValue? v = some store) : f.orLacking.decoder.ofValue? v = some store :=
  decoded

/-- After the tag, the members are buffered and the variant is decoded from them. -/
theorem variantMembers_written {vs : Variants α} {decode : Value → Option α}
    {written : List (String × List Char × Value)} {x : α} (first : Bool)
    {acc : List (String × Value)} (untagged : ∀ w ∈ written, w.1 ≠ Variants.tagName)
    (reads : ∀ w ∈ written, Reads (value depth) w.2.1 w.2.2)
    (decoded : decode (.object (acc.reverse ++ written.map fun w => (w.1, w.2.2))) = some x)
    {bound : List Symbol} (enough : written.length < bound.length) (rest : List Symbol) :
    vs.readMembers depth first (some decode) acc bound
        (memberSymbols first (written.map fun w => (w.1, w.2.1)) rest) = .ok (x, rest) := by
  induction written generalizing first acc bound with
  | nil =>
    cases bound with
    | nil => cases enough
    | cons b bound =>
      rw [List.map_nil, List.append_nil] at decoded
      rw [List.map_nil, Variants.readMembers, nextName_close]
      simp only [Option.bind_some, decoded]
  | cons w written ih =>
    cases bound with
    | nil => cases enough
    | cons b bound =>
      obtain ⟨here, later⟩ := List.forall_mem_cons.1 reads
      obtain ⟨other, others⟩ := List.forall_mem_cons.1 untagged
      rw [List.length_cons, List.length_cons] at enough
      rw [List.map_cons, Variants.readMembers, nextName_member]
      simp only [other, false_and, ↓reduceIte, colon_eq, here _]
      exact ih false others later (by simpa using decoded) (by omega)

/-- A tagged value is read from an object whose first member is the tag. -/
theorem reads_variant {vs : Variants α} {tag : String} {decode : Value → Option α} {x : α}
    (written : List (String × List Char × Value)) (known : vs.variant? tag = some decode)
    (untagged : ∀ w ∈ written, w.1 ≠ Variants.tagName)
    (reads : ∀ w ∈ written, Reads (value depth) w.2.1 w.2.2)
    (decoded : decode (.object (written.map fun w => (w.1, w.2.2))) = some x) :
    Reads (vs.decoder.read (depth + 1))
      (writeObject
        ((Variants.tagName, quoteString tag) :: written.map fun w => (w.1, w.2.1))) x := by
  intro rest
  have shorter := length_writeMembers false (written.map fun w => (w.1, w.2.1))
  rw [List.length_map] at shorter
  have readTag (more : List Symbol) :
      vs.readTag ((quoteString tag).map some ++ more) = .ok (decode, more) :=
    reads_refine (reads_string 0 tag) known more
  rw [map_writeObject]
  change vs.readMembers depth true none [] (none :: memberSymbols true _ rest) _ = _
  rw [Variants.readMembers, nextName_member]
  simp only [Option.isSome_none, Bool.false_eq_true, and_false, ↓reduceIte, colon_eq, readTag]
  refine variantMembers_written false untagged reads decoded ?_ rest
  simp only [memberSymbols, writeMembers, List.length_append, List.length_map, List.length_cons]
  omega

end Decoders

/-- A text that a decoder reads to its end is parsed. -/
theorem parseText_of_reads {α : Type} {d : Decoder α} {text : List Char} {x : α}
    (reads : Reads (d.read depthLimit) text x) : d.parseText (String.ofList text) = .ok x := by
  have whole := reads []
  rw [List.append_nil] at whole
  simp only [Decoder.parseText, Decoder.parse, String.toList_ofList, whole, skipSpace,
    List.dropWhile_nil, List.isEmpty_nil, ↓reduceIte]

end ChannelAgent.Json
