import ChannelAgent.Usage.Logger

set_option autoImplicit false

namespace ChannelAgent.Usage

def segments (text : String) : List String := (text.toList.splitOn '/').map String.ofList

theorem mem_withoutBlanks {c : Char} {text : String} :
    c ∈ (withoutBlanks text).toList ↔ c ∈ text.toList ∧ c ≠ ' ' ∧ c ≠ '\n' := by
  simp [withoutBlanks]

/-- Nothing is left of a text just if it holds nothing but spaces and line feeds. -/
theorem withoutBlanks_eq_empty {text : String} :
    withoutBlanks text = "" ↔ ∀ c ∈ text.toList, c = ' ' ∨ c = '\n' := by
  rw [← String.toList_inj, withoutBlanks, String.toList_ofList, String.toList_empty,
    List.filter_eq_nil_iff]
  refine forall₂_congr fun c _ => ?_
  simp [Decidable.or_iff_not_imp_left]

/-- Characters that do not separate may be taken out before the text is cut, or after it. -/
theorem splitOn_filter {c : Char} {kept : Char → Bool} (separates : kept c = true)
    (text : List Char) : (text.filter kept).splitOn c = (text.splitOn c).map (List.filter kept) := by
  induction text with
  | nil => rfl
  | cons x text ih =>
    rw [List.splitOn_cons_eq_if_modifyHead]
    by_cases cut : x = c
    · subst cut
      rw [List.filter_cons_of_pos separates, List.splitOn_cons_eq_if_modifyHead, ih]
      simp
    · have inside : (x == c) = false := beq_false_of_ne cut
      obtain ⟨piece, pieces, whole⟩ := List.exists_cons_of_ne_nil (List.splitOn_ne_nil c text)
      rw [whole] at ih ⊢
      by_cases stays : kept x = true
      · rw [List.filter_cons_of_pos stays, List.splitOn_cons_eq_if_modifyHead, ih]
        simp [inside, stays]
      · rw [List.filter_cons_of_neg stays, ih]
        simp [inside, stays]

theorem segments_withoutBlanks (text : String) :
    segments (withoutBlanks text) = (segments text).map withoutBlanks := by
  rw [segments, withoutBlanks, String.toList_ofList, splitOn_filter (by decide), segments,
    List.map_map, List.map_map]
  refine List.map_congr_left fun piece _ => ?_
  simp [withoutBlanks]

theorem segments_join (front back : String) :
    segments (front ++ "/" ++ back) = segments front ++ segments back := by
  have cut : (front ++ "/" ++ back).toList = front.toList ++ '/' :: back.toList := by simp
  rw [segments, cut, List.splitOn_append_cons_self, List.map_append]
  rfl

theorem segments_intercalate {parts : List String} (nonempty : parts ≠ []) :
    segments (String.intercalate "/" parts) = parts.flatMap segments := by
  induction parts with
  | nil => exact absurd rfl nonempty
  | cons part parts ih =>
    cases parts with
    | nil => simp
    | cons next parts =>
      rw [String.intercalate_cons_cons, segments_join, ih (List.cons_ne_nil next parts)]
      rfl

theorem segments_of_flat {text : String} (flat : '/' ∉ text.toList) : segments text = [text] := by
  rw [segments, List.splitOn_eq_singleton flat, List.map_singleton, String.ofList_toList]

theorem segments_userAgent (agent : AgentProperties) (status : String) :
    segments (userAgent agent status) =
      (userAgentParts agent status).flatMap fun part => (segments part).map withoutBlanks := by
  have nonempty : userAgentParts agent status ≠ [] := by simp [userAgentParts]
  rw [userAgent, segments_withoutBlanks, segments_intercalate nonempty, List.map_flatMap]

/-- A user agent with no optional part. -/
theorem userAgent_bare {agent : AgentProperties} (bare : agent.optional = "") (status : String) :
    userAgent agent status =
      withoutBlanks agent.leading ++ "/" ++ withoutBlanks agent.name ++ "/" ++
        withoutBlanks agent.version ++ "/" ++ withoutBlanks status := by
  have slash : withoutBlanks "/" = "/" := by decide
  have parts : String.intercalate "/" (userAgentParts agent status) =
      agent.leading ++ "/" ++ agent.name ++ "/" ++ agent.version ++ "/" ++ status := by
    rw [userAgentParts, bare]
    simp [String.append_assoc]
  rw [userAgent, parts]
  simp only [withoutBlanks_append, slash]

namespace Logger

theorem withoutBlanks_name (s : Status) : withoutBlanks s.name = s.name := by
  cases s <;> decide

theorem flat_name (s : Status) : '/' ∉ s.name.toList := by
  cases s <;> decide

/-- A status that is reported is known by its own name. -/
theorem withoutBlanks_statusText (s : Status) (value : String) :
    withoutBlanks (statusText s value) =
      if value = "" then s.name else s.name ++ "/" ++ withoutBlanks value := by
  have slash : withoutBlanks "/" = "/" := by decide
  rw [statusText]
  simp only [String.isEmpty_iff]
  split
  · exact withoutBlanks_name s
  · rw [withoutBlanks_append, withoutBlanks_append, withoutBlanks_name, slash]

/-- A report of a status with a value, by an agent with no optional part and no slash in its name
and version. -/
structure Reports (l : Logger) (delivery : Delivery) (agent : AgentProperties) (status : Status)
    (value : String) (r : Request) : Prop where
  identity : l.agent = some agent
  made : (l.outcome delivery status value).report = some r
  bare : agent.optional = ""
  name : '/' ∉ agent.name.toList
  version : '/' ∉ agent.version.toList
  value : '/' ∉ value.toList

section

variable {l l' : Logger} {delivery delivery' : Delivery} {agent agent' : AgentProperties}
  {status status' : Status} {value value' : String} {r r' : Request}

theorem Reports.userAgent_eq (reports : l.Reports delivery agent status value r) :
    r.userAgent = userAgent agent (statusText status value) := by
  obtain ⟨identity, made, -, -, -, -⟩ := reports
  cases enabled : agent.enabled with
  | false =>
    have off : l.reporting? = none := by simp [reporting?, identity, enabled]
    rw [outcome, off] at made
    cases made
  | true =>
    have on : l.reporting? = some agent := by simp [reporting?, identity, enabled]
    rw [report_outcome on, request] at made
    split at made
    · cases made
    · split at made
      · cases made
      · obtain rfl := Option.some.inj made
        rfl

/-- What a user agent tells, piece by piece. -/
theorem Reports.segments_eq (reports : l.Reports delivery agent status value r) :
    segments r.userAgent =
      (segments agent.leading).map withoutBlanks ++
        (withoutBlanks agent.name :: withoutBlanks agent.version :: status.name ::
          if value = "" then [] else [withoutBlanks value]) := by
  have flat : ∀ {text : String}, '/' ∉ text.toList →
      (segments text).map withoutBlanks = [withoutBlanks text] := by
    intro text flat
    rw [segments_of_flat flat, List.map_singleton]
  have told : (segments (statusText status value)).map withoutBlanks =
      status.name :: if value = "" then [] else [withoutBlanks value] := by
    rw [statusText]
    simp only [String.isEmpty_iff]
    split
    · rw [flat (flat_name status), withoutBlanks_name]
    · rw [segments_join, List.map_append, flat (flat_name status), flat reports.value,
        withoutBlanks_name]
      rfl
  rw [reports.userAgent_eq, segments_userAgent, userAgentParts, reports.bare]
  simp [flat reports.name, flat reports.version, told]

/-- Two reports under one leading part are told apart by their statuses, names, versions and
values. -/
theorem Reports.userAgent_inj (reports : l.Reports delivery agent status value r)
    (others : l'.Reports delivery' agent' status' value' r')
    (leading : agent.leading = agent'.leading) :
    r.userAgent = r'.userAgent ↔
      status = status' ∧ withoutBlanks agent.name = withoutBlanks agent'.name ∧
        withoutBlanks agent.version = withoutBlanks agent'.version ∧
        withoutBlanks value = withoutBlanks value' ∧ (value = "" ↔ value' = "") := by
  constructor
  · intro same
    have pieces : segments r.userAgent = segments r'.userAgent := congrArg segments same
    rw [reports.segments_eq, others.segments_eq, leading, List.append_cancel_left_eq] at pieces
    obtain ⟨name, pieces⟩ := List.cons.inj pieces
    obtain ⟨version, pieces⟩ := List.cons.inj pieces
    obtain ⟨statusName, values⟩ := List.cons.inj pieces
    refine ⟨Status.name_inj.1 statusName, name, version, ?_⟩
    by_cases absent : value = "" <;> by_cases absent' : value' = ""
    · exact ⟨by rw [absent, absent'], by simp [absent, absent']⟩
    · simp [absent, absent'] at values
    · simp [absent, absent'] at values
    · exact ⟨by simpa [absent, absent'] using values, by simp [absent, absent']⟩
  · rintro ⟨rfl, name, version, same, absent⟩
    rw [reports.userAgent_eq, others.userAgent_eq, userAgent_bare reports.bare,
      userAgent_bare others.bare, withoutBlanks_statusText, withoutBlanks_statusText, leading, name,
      version, same]
    simp only [absent]

end

/-- A user agent holds no space and no line feed, and between its slashes stands what stands between
those of its parts, without spaces and line feeds. With a leading part given, and no optional part
and no slashes elsewhere, the user agent of a report tells the status, and tells the name, the
version and the value up to spaces and line feeds; besides, it tells whether there is a value at
all. -/
theorem userAgent_decodable :
    (∀ (agent : AgentProperties) (status : String),
      ' ' ∉ (userAgent agent status).toList ∧ '\n' ∉ (userAgent agent status).toList ∧
        segments (userAgent agent status) =
          ([agent.leading, agent.name, agent.version] ++
            (if agent.optional = "" then [] else [agent.optional]) ++ [status]).flatMap
              fun part => (segments part).map withoutBlanks) ∧
      ∀ (l l' : Logger) (delivery delivery' : Delivery) (agent agent' : AgentProperties)
        (status status' : Status) (value value' : String) (r r' : Request),
        l.Reports delivery agent status value r → l'.Reports delivery' agent' status' value' r' →
        agent.leading = agent'.leading →
          (r.userAgent = r'.userAgent ↔
            status = status' ∧ withoutBlanks agent.name = withoutBlanks agent'.name ∧
              withoutBlanks agent.version = withoutBlanks agent'.version ∧
              withoutBlanks value = withoutBlanks value' ∧ (value = "" ↔ value' = "")) := by
  refine ⟨fun agent status => ⟨?_, ?_, ?_⟩, ?_⟩
  · intro blank
    exact (mem_withoutBlanks.1 blank).2.1 rfl
  · intro blank
    exact (mem_withoutBlanks.1 blank).2.2 rfl
  · simpa only [userAgentParts, String.isEmpty_iff] using segments_userAgent agent status
  · intro l l' delivery delivery' agent agent' status status' value value' r r' reports others leading
    exact reports.userAgent_inj others leading

/-- Blanks do not make a difference, the value does. -/
theorem userAgent_decodable_updated :
    let agent : AgentProperties :=
      { name := "my agent", version := "1.0\n", enabled := true, leading := "a/b" }
    let twin : AgentProperties := { agent with name := "myagent", version := "1.0" }
    let l (a : AgentProperties) : Logger := { agent := some a, cloud := some { zone := "z" } }
    let r (value : String) : Request :=
      { url := "https://compute.googleapis.com/compute/v1/projects//zones/z/instances/"
        userAgent := "a/b/myagent/1.0/UPDATED/" ++ value, project := none }
    (l agent).Reports .sure agent .updated "1" (r "1") ∧
      (l twin).Reports .sure twin .updated " 1" (r "1") ∧
      (l twin).Reports .sure twin .updated "2" (r "2") ∧
      withoutBlanks "my agent" = withoutBlanks "myagent" ∧ (r "1").userAgent ≠ (r "2").userAgent := by
  intro agent twin l r
  have first : (l agent).Reports .sure agent .updated "1" (r "1") :=
    ⟨rfl, by decide, rfl, by decide, by decide, by decide⟩
  have second : (l twin).Reports .sure twin .updated " 1" (r "1") :=
    ⟨rfl, by decide, rfl, by decide, by decide, by decide⟩
  have third : (l twin).Reports .sure twin .updated "2" (r "2") :=
    ⟨rfl, by decide, rfl, by decide, by decide, by decide⟩
  obtain ⟨-, apart⟩ := userAgent_decodable
  have same := (apart _ _ _ _ _ _ _ _ _ _ _ _ first second rfl).1 rfl
  refine ⟨first, second, third, same.2.1, ?_⟩
  intro collide
  have values := ((apart _ _ _ _ _ _ _ _ _ _ _ _ second third rfl).1 collide).2.2.2.1
  exact absurd values (by decide)

end Logger

end ChannelAgent.Usage
