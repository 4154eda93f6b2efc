set_option autoImplicit false

namespace ChannelAgent

/-- Entries with strictly increasing names. -/
structure Labels where
  entries : List (String × String)
  sorted : entries.Pairwise fun a b => a.1 < b.1

namespace Labels

instance : DecidableEq Labels := fun a b =>
  if h : a.entries = b.entries then
    isTrue (by cases a; cases b; simp_all)
  else isFalse fun e => h (by rw [e])

@[ext] theorem ext {a b : Labels} (h : a.entries = b.entries) : a = b := by
  cases a; cases b; simp_all

def empty : Labels := ⟨[], .nil⟩

instance : Inhabited Labels := ⟨empty⟩

/-- Puts an entry into its place among sorted entries; an entry of the same name gives way. -/
def place (name text : String) : List (String × String) → List (String × String)
  | [] => [(name, text)]
  | e :: rest =>
    if name < e.1 then (name, text) :: e :: rest
    else if name = e.1 then (name, text) :: rest
    else e :: place name text rest

/-- A name in the entries after placing is the new one or an old one. -/
theorem mem_place {name text : String} {es : List (String × String)} {e : String × String}
    (h : e ∈ place name text es) : e = (name, text) ∨ e ∈ es := by
  induction es with
  | nil => simpa [place] using h
  | cons x rest ih =>
    rw [place] at h
    split at h
    · simpa using h
    · split at h
      · rcases List.mem_cons.1 h with h | h
        · exact .inl h
        · exact .inr (List.mem_cons_of_mem _ h)
      · rcases List.mem_cons.1 h with h | h
        · exact .inr (by simp [h])
        · rcases ih h with h | h
          · exact .inl h
          · exact .inr (List.mem_cons_of_mem _ h)

theorem place_sorted (name text : String) {es : List (String × String)}
    (h : es.Pairwise fun a b => a.1 < b.1) :
    (place name text es).Pairwise fun a b => a.1 < b.1 := by
  induction es with
  | nil => simp [place]
  | cons x rest ih =>
    have hx := List.pairwise_cons.1 h
    rw [place]
    split
    · rename_i lt
      refine List.pairwise_cons.2 ⟨fun e he => ?_, h⟩
      rcases List.mem_cons.1 he with he | he
      · subst he; exact lt
      · exact String.lt_trans lt (hx.1 e he)
    · rename_i notLt
      split
      · rename_i eq
        exact List.pairwise_cons.2 ⟨fun e he => by simpa [eq] using hx.1 e he, hx.2⟩
      · rename_i ne
        refine List.pairwise_cons.2 ⟨fun e he => ?_, ih hx.2⟩
        rcases mem_place he with he | he
        · subst he
          have le : x.1 ≤ name := String.not_lt.1 notLt
          by_cases lt : x.1 < name
          · exact lt
          · exact absurd (String.le_antisymm (String.not_lt.1 lt) le) ne
        · exact hx.1 e he

def insert (l : Labels) (name text : String) : Labels :=
  ⟨place name text l.entries, place_sorted name text l.sorted⟩

/-- The labels of a list of entries, where the last entry of a name counts. -/
def ofList (entries : List (String × String)) : Labels :=
  entries.foldl (fun l e => l.insert e.1 e.2) empty

/-- An entry whose name is the greatest comes last. -/
theorem place_last {name text : String} {es : List (String × String)}
    (greatest : ∀ e ∈ es, e.1 < name) : place name text es = es ++ [(name, text)] := by
  induction es with
  | nil => rfl
  | cons x rest ih =>
    obtain ⟨below, later⟩ := List.forall_mem_cons.1 greatest
    have notLess : ¬ name < x.1 := String.lt_asymm below
    have apart : name ≠ x.1 := fun same => String.lt_irrefl name (same ▸ below)
    rw [place, if_neg notLess, if_neg apart, ih later, List.cons_append]

theorem entries_insertAll {l : Labels} {es : List (String × String)}
    (sorted : (l.entries ++ es).Pairwise fun a b => a.1 < b.1) :
    (es.foldl (fun l e => l.insert e.1 e.2) l).entries = l.entries ++ es := by
  induction es generalizing l with
  | nil => simp
  | cons e es ih =>
    have greatest : ∀ x ∈ l.entries, x.1 < e.1 := fun x found =>
      (List.pairwise_append.1 sorted).2.2 x found e List.mem_cons_self
    have placed : (l.insert e.1 e.2).entries = l.entries ++ [e] := place_last greatest
    rw [List.foldl_cons, ih (by rw [placed]; simpa using sorted), placed]
    simp

/-- Labels are the labels of their entries. -/
theorem ofList_entries (l : Labels) : ofList l.entries = l :=
  Labels.ext (entries_insertAll (l := empty) l.sorted)

def get? (l : Labels) (name : String) : Option String :=
  (l.entries.find? fun e => e.1 = name).map (·.2)

def isEmpty (l : Labels) : Bool := l.entries.isEmpty

end Labels

end ChannelAgent
