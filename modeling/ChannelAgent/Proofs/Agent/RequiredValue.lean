import ChannelAgent.Proofs.Agent.StatusReport
import ChannelAgent.Proofs.Usage.UserAgent

set_option autoImplicit false

namespace ChannelAgent.Agent.StatusReport

open Usage (Desk Request withoutBlanks withoutBlanks_append withoutBlanks_eq_empty)

/-- The version holds something that a report keeps. -/
def Visible (version : String) : Prop := ∃ c ∈ version.toList, c ≠ ' ' ∧ c ≠ '\n'

theorem visible_iff {version : String} : Visible version ↔ withoutBlanks version ≠ "" := by
  rw [Ne, withoutBlanks_eq_empty]
  simp [Visible]

section

variable {r : StatusReport} {name version : String} {cloud : CloudProperties} {d : Desk}
  {now : Nat} {q : Request}

theorem complete_of_reported (reported : (now, q) ∈ (r.run name version cloud d).2.1.reports) :
    ∀ lack, ¬ Lacks r (r.version.getD version) lack := by
  intro lack lacks
  obtain ⟨entries, run⟩ := run_of_lack name cloud d lacks
  rw [run] at reported
  cases reported

theorem request_of_reported (reported : (now, q) ∈ (r.run name version cloud d).2.1.reports) :
    q = r.request name (r.version.getD version) cloud d.logger.platform := by
  obtain ⟨-, made, unmade⟩ := run_of_complete name cloud d (complete_of_reported reported)
  by_cases heard : Heard r cloud d
  · rw [made heard, List.mem_singleton] at reported
    exact (Prod.mk.inj reported).2
  · rw [unmade heard] at reported
    cases reported

/-- A positive code is written, and with digits only. -/
theorem withoutBlanks_code {code : Int} (positive : 0 < code) :
    withoutBlanks (toString code) = toString code ∧ toString code ≠ "" := by
  obtain ⟨n, rfl⟩ := Int.eq_ofNat_of_zero_le (Int.le_of_lt positive)
  have written : toString (n : Int) = String.ofList (Nat.toDigits 10 n) := rfl
  have digits : ∀ c ∈ Nat.toDigits 10 n, c.isDigit := fun c found =>
    Nat.isDigit_of_mem_toDigits (by decide) (by decide) found
  constructor
  · rw [written, withoutBlanks, String.toList_ofList, List.filter_eq_self.2]
    intro c found
    have digit := digits c found
    have visible : c ≠ ' ' ∧ c ≠ '\n' := by
      constructor <;> rintro rfl <;> exact absurd digit (by decide)
    simp [visible]
  · rw [written, Ne, String.ofList_eq_empty_iff]
    exact Nat.toDigits_ne_nil

/-- What a report says behind a status that requires a value. -/
inductive Requires (r : StatusReport) (v : String) : String → Prop
  | errorCode (failed : r.status = "ERROR") (positive : 0 < r.errorCode) :
    Requires r v (toString r.errorCode)
  | actionCode (acted : r.status = "ACTION") (positive : 0 < r.actionCode) :
    Requires r v (toString r.actionCode)
  | version (updated : r.status = "UPDATED") (present : v ≠ "") : Requires r v (withoutBlanks v)

theorem requires_of_complete {v : String} (complete : ∀ lack, ¬ Lacks r v lack)
    (required : r.status ∈ ["UPDATED", "ERROR", "ACTION"]) :
    ∃ text, r.suffix v = "/" ++ text ∧ Requires r v (withoutBlanks text) := by
  simp only [List.mem_cons, List.not_mem_nil, or_false] at required
  rcases required with updated | failed | acted
  · have present : v ≠ "" := fun absent => complete .version (.version updated absent)
    exact ⟨v, by simp [suffix, updated], .version updated present⟩
  · have positive : 0 < r.errorCode :=
      Int.not_le.1 fun low => complete .errorCode (.errorCode failed low)
    refine ⟨toString r.errorCode, by simp [suffix, failed], ?_⟩
    rw [(withoutBlanks_code positive).1]
    exact .errorCode failed positive
  · have positive : 0 < r.actionCode :=
      Int.not_le.1 fun low => complete .actionCode (.actionCode acted low)
    refine ⟨toString r.actionCode, by simp [suffix, acted], ?_⟩
    rw [(withoutBlanks_code positive).1]
    exact .actionCode acted positive

/-- A required value is empty just if it is a version of which nothing is left. -/
theorem Requires.nonempty_iff {v value : String} (requires : Requires r v value) :
    value ≠ "" ↔ (r.status = "UPDATED" → Visible v) := by
  cases requires with
  | errorCode failed positive =>
    have other : r.status ≠ "UPDATED" := by rw [failed]; decide
    exact ⟨fun _ updated => absurd updated other, fun _ => (withoutBlanks_code positive).2⟩
  | actionCode acted positive =>
    have other : r.status ≠ "UPDATED" := by rw [acted]; decide
    exact ⟨fun _ updated => absurd updated other, fun _ => (withoutBlanks_code positive).2⟩
  | version updated present =>
    rw [← visible_iff]
    exact ⟨fun visible _ => visible, fun visible => visible updated⟩

theorem userAgent_of_reported
    (reported : (now, q) ∈ (r.run name version cloud d).2.1.reports)
    (required : r.status ∈ ["UPDATED", "ERROR", "ACTION"]) :
    ∃ value, Requires r (r.version.getD version) value ∧
      q.userAgent = "gwap/" ++ withoutBlanks (r.name.getD name) ++ "/" ++
        withoutBlanks (r.version.getD version) ++ "/" ++ r.status ++ "/" ++ value := by
  obtain ⟨text, suffix, requires⟩ := requires_of_complete (complete_of_reported reported) required
  have slash : withoutBlanks "/" = "/" := by decide
  have leading : withoutBlanks "gwap" = "gwap" := by decide
  have status : withoutBlanks r.status = r.status := by
    simp only [List.mem_cons, List.not_mem_nil, or_false] at required
    rcases required with named | named | named <;> rw [named] <;> decide
  have start : "gwap/" = "gwap" ++ "/" := by decide
  refine ⟨withoutBlanks text, requires, ?_⟩
  rw [request_of_reported reported, request, suffix, start]
  simp only [withoutBlanks_append, slash, leading, status, String.append_assoc]

/-- The check of a version and the report of it agree on what an empty one is, except for a version
of nothing but spaces and line feeds. -/
theorem lacks_version_iff (updated : r.status = "UPDATED") (v : String) :
    (Lacks r v .version ↔ withoutBlanks v = "") ↔ (v = "" ∨ Visible v) := by
  have lacks : Lacks r v .version ↔ v = "" := by
    constructor
    · intro lacks
      cases lacks
      assumption
    · exact .version updated
  rw [lacks, visible_iff]
  by_cases absent : v = ""
  · simp [absent, withoutBlanks]
  · simp [absent]

end

/-- A report of UPDATED, ERROR or ACTION tells the name, the version and the status, and behind them
the value that the status requires: a positive code as it is, and the version without its spaces and
line feeds, for one that is not empty. Something is left of the value, and for UPDATED of the
version, unless the version of an update is made of nothing but spaces and line feeds. That is where
the check of the version and the report of it part. -/
theorem value_reported_iff (r : StatusReport) (name version : String) (cloud : CloudProperties)
    (d : Desk) :
    let v := r.version.getD version
    (∀ now q, (now, q) ∈ (r.run name version cloud d).2.1.reports →
      r.status ∈ ["UPDATED", "ERROR", "ACTION"] →
        ∃ value, Requires r v value ∧
          q.userAgent = "gwap/" ++ withoutBlanks (r.name.getD name) ++ "/" ++ withoutBlanks v ++ "/" ++
            r.status ++ "/" ++ value ∧
          (value ≠ "" ↔ (r.status = "UPDATED" → Visible v)) ∧
          (r.status = "UPDATED" → (withoutBlanks v ≠ "" ↔ Visible v))) ∧
      (r.status = "UPDATED" →
        ∀ given, (Lacks r given .version ↔ withoutBlanks given = "") ↔
          (given = "" ∨ Visible given)) := by
  refine ⟨?_, lacks_version_iff⟩
  intro now q reported required
  obtain ⟨value, requires, userAgent⟩ := userAgent_of_reported reported required
  exact ⟨value, requires, userAgent, requires.nonempty_iff, fun _ => visible_iff.symm⟩

/-- Blanks around a version are lost, the version is not. -/
theorem value_reported_iff_updated :
    let d : Desk := { logger := {} }
    let cloud : CloudProperties := { zone := "z" }
    let r : StatusReport := { status := "UPDATED", version := some " 2.0\n" }
    ∃ q, (0, q) ∈ (r.run "agent" "1.0" cloud d).2.1.reports ∧
      q.userAgent = "gwap/agent/2.0/UPDATED/2.0" ∧ Visible " 2.0\n" ∧
      (∃ value, Requires r " 2.0\n" value ∧ value ≠ "") ∧
      (Lacks r " 2.0\n" .version ↔ withoutBlanks " 2.0\n" = "") := by
  intro d cloud r
  have complete : ∀ lack, ¬ Lacks r (r.version.getD "1.0") lack := by
    intro lack lacks
    have found := lack?_eq_some.2 lacks
    cases found
  have heard : Heard r cloud d := ⟨⟨by decide, by decide⟩, by decide⟩
  have visible : Visible " 2.0\n" := ⟨'2', by decide, by decide⟩
  obtain ⟨-, made, -⟩ := run_of_complete "agent" cloud d complete
  have reported : (0, r.request "agent" " 2.0\n" cloud .gce) ∈
      (r.run "agent" "1.0" cloud d).2.1.reports := by
    rw [made heard]
    exact List.mem_singleton_self _
  obtain ⟨values, checks⟩ := value_reported_iff r "agent" "1.0" cloud d
  obtain ⟨value, requires, -, nonempty, -⟩ := values 0 _ reported (by decide)
  exact ⟨_, reported, by decide, visible, ⟨value, requires, nonempty.2 fun _ => visible⟩,
    (checks rfl " 2.0\n").2 (.inr visible)⟩

/-- A blank passes for the version of an update, and an empty one is reported. -/
theorem blank_version_reported :
    let d : Desk := { logger := {} }
    let cloud : CloudProperties := { projectId := "p", zone := "z", instanceName := "i" }
    let r : StatusReport := { status := "UPDATED", version := some " " }
    (r.run "agent" "1.0" cloud d).1 = .ok () ∧
      (r.run "agent" "1.0" cloud d).2.1.reports.map (fun e => e.2.userAgent) =
        ["gwap/agent//UPDATED/"] ∧
      r.lack? " " = none ∧ withoutBlanks " " = "" := by
  intro d cloud r
  have complete : ∀ lack, ¬ Lacks r (r.version.getD "1.0") lack := by
    intro lack lacks
    have found := lack?_eq_some.2 lacks
    cases found
  have heard : Heard r cloud d := ⟨⟨by decide, by decide⟩, by decide⟩
  obtain ⟨ok, made, -⟩ := run_of_complete "agent" cloud d complete
  refine ⟨ok, ?_, lack?_eq_none complete, by decide⟩
  rw [made heard]
  decide

end ChannelAgent.Agent.StatusReport
