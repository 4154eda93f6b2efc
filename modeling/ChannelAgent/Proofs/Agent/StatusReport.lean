import ChannelAgent.Agent.OneTime

set_option autoImplicit false

namespace ChannelAgent

namespace Usage

def Platform.place (cloud : CloudProperties) : Platform → String
  | .gce => cloud.zone
  | .cloudRun _ => cloud.region

def Platform.address (cloud : CloudProperties) : Platform → String
  | .gce => instanceUrl cloud
  | .cloudRun job => jobUrl cloud job

/-- Neither is about the image. -/
@[simp] theorem Platform.place_image (cloud : CloudProperties) (image : String)
    (platform : Platform) : platform.place { cloud with image } = platform.place cloud := by
  cases platform <;> rfl

@[simp] theorem Platform.address_image (cloud : CloudProperties) (image : String)
    (platform : Platform) : platform.address { cloud with image } = platform.address cloud := by
  cases platform <;> rfl

namespace Logger

theorem url_of_placed {cloud : CloudProperties} {platform : Platform}
    (placed : platform.place cloud ≠ "") : url cloud platform = .ok (platform.address cloud) := by
  cases platform with
  | gce =>
    have zone : cloud.zone.isEmpty = false := String.isEmpty_eq_false_iff.2 placed
    rw [url, zone]
    rfl
  | cloudRun job =>
    have region : cloud.region.isEmpty = false := String.isEmpty_eq_false_iff.2 placed
    rw [url, region]
    rfl

theorem url_of_unplaced {cloud : CloudProperties} {platform : Platform}
    (unplaced : platform.place cloud = "") : ∃ fault, url cloud platform = .error fault := by
  cases platform with
  | gce =>
    have zone : cloud.zone.isEmpty = true := String.isEmpty_iff.2 unplaced
    exact ⟨.missingZone, by rw [url, zone]; rfl⟩
  | cloudRun job =>
    have region : cloud.region.isEmpty = true := String.isEmpty_iff.2 unplaced
    exact ⟨.missingRegion, by rw [url, region]; rfl⟩

/-- What a logger needs to make reports for an instance. -/
structure Reaches (l : Logger) (cloud : CloudProperties) : Prop where
  placed : l.platform.place cloud ≠ ""
  included : cloud.numericProjectId ∉ l.exclusions

variable {l : Logger} {cloud : CloudProperties} (agent : AgentProperties) (text : String)

theorem request_of_reaches (given : l.cloud.getD {} = cloud) (reaches : l.Reaches cloud) :
    l.request agent text =
      .ok (some
        { url := l.platform.address cloud, userAgent := userAgent agent text
          project := if cloud.projectId = "" then none else some cloud.projectId }) := by
  simp only [request, given, url_of_placed reaches.placed, reaches.included, ↓reduceIte,
    String.isEmpty_iff]

theorem request_of_not_reaches (given : l.cloud.getD {} = cloud) (cut : ¬ l.Reaches cloud) :
    (l.request agent text).toOption.join = none := by
  by_cases placed : l.platform.place cloud = ""
  · obtain ⟨fault, refused⟩ := url_of_unplaced placed
    rw [request, given, refused]
    rfl
  · have excluded : cloud.numericProjectId ∈ l.exclusions :=
      Decidable.byContradiction fun included => cut ⟨placed, included⟩
    rw [request, given, url_of_placed placed]
    simp only [excluded, ↓reduceIte]
    rfl

end Logger

end Usage

namespace Agent.StatusReport

open Usage (Desk Ledger Request)

inductive Lacks (r : StatusReport) (v : String) : Lack → Prop
  | status (absent : r.status = "") : Lacks r v .status
  | version (updated : r.status = "UPDATED") (absent : v = "") : Lacks r v .version
  | errorCode (failed : r.status = "ERROR") (low : r.errorCode ≤ 0) : Lacks r v .errorCode
  | actionCode (acted : r.status = "ACTION") (low : r.actionCode ≤ 0) : Lacks r v .actionCode

section

variable {r : StatusReport} {v : String}

theorem lacks_of_lack? {lack : Lack} (found : r.lack? v = some lack) : Lacks r v lack := by
  unfold lack? at found
  split at found
  · rename_i absent
    obtain rfl := Option.some.inj found
    exact .status absent
  split at found
  · rename_i updated
    obtain rfl := Option.some.inj found
    exact .version updated.1 updated.2
  split at found
  · rename_i failed
    obtain rfl := Option.some.inj found
    exact .errorCode failed.1 failed.2
  split at found
  · rename_i acted
    obtain rfl := Option.some.inj found
    exact .actionCode acted.1 acted.2
  · cases found

theorem lack?_eq_some {lack : Lack} : r.lack? v = some lack ↔ Lacks r v lack := by
  constructor
  · exact lacks_of_lack?
  · intro lacks
    -- the four statuses differ, so an earlier check does not get in the way
    cases lacks with
    | status absent => simp [lack?, absent]
    | version updated absent => simp [lack?, updated, absent]
    | errorCode failed low => simp [lack?, failed, low]
    | actionCode acted low => simp [lack?, acted, low]

def suffix (r : StatusReport) (v : String) : String :=
  if r.status = "ERROR" then "/" ++ toString r.errorCode
  else if r.status = "ACTION" then "/" ++ toString r.actionCode
  else if r.status = "UPDATED" then "/" ++ v
  else ""

/-- A known status with its value reads as the status of the report and what stands behind it. -/
theorem statusText_value (present : ¬ Lacks r v .version) {s : Usage.Status}
    (named : s.name = r.status) :
    Usage.Logger.statusText s (r.value v s) = r.status ++ r.suffix v := by
  rw [← named]
  unfold suffix
  rw [← named]
  cases s with
  | error => exact Usage.Logger.statusText_code .error r.errorCode
  | action => exact Usage.Logger.statusText_code .action r.actionCode
  | updated =>
    have version : v.isEmpty = false :=
      String.isEmpty_eq_false_iff.2 fun absent => present (.version named.symm absent)
    rw [Usage.Logger.statusText, value, version]
    rfl
  | _ => rfl

/-- The request that a report comes to, from an agent with a name, on a platform. -/
def request (r : StatusReport) (name v : String) (cloud : CloudProperties)
    (platform : Usage.Platform) : Request where
  url := platform.address cloud
  userAgent := Usage.withoutBlanks
    ("gwap" ++ "/" ++ r.name.getD name ++ "/" ++ v ++ "/" ++ (r.status ++ r.suffix v))
  project := if cloud.projectId = "" then none else some cloud.projectId

/-- The backend gets the request: the status is known, the location is there, and the project is not
excluded. -/
structure Heard (r : StatusReport) (cloud : CloudProperties) (d : Desk) : Prop
    extends d.logger.Reaches cloud where
  known : r.status ∈ ["RUNNING", "STARTED", "STOPPED", "CONFIGURED", "MISCONFIGURED", "ERROR",
    "INSTALLED", "UPDATED", "UNINSTALLED", "ACTION"]

/-- The image is no part of what a report needs of the instance. -/
theorem properties_eq (r : StatusReport) (cloud : CloudProperties) :
    ∃ image, r.properties cloud = { cloud with image } := by
  unfold properties
  split
  · split
    · exact ⟨cloud.image, rfl⟩
    · exact ⟨_, rfl⟩
  · exact ⟨cloud.image, rfl⟩

section

variable (name : String) {version : String} (cloud : CloudProperties) (d : Desk)

theorem run_of_lack {lack : Lack} (lacks : Lacks r (r.version.getD version) lack) :
    ∃ entries, r.run name version cloud d = (.error lack, .ofEntries d.now entries, d) := by
  simp only [run, lack?_eq_some.2 lacks]
  exact ⟨_, rfl⟩

/-- The logger with the properties to report with. -/
def prepared (r : StatusReport) (name v : String) (cloud : CloudProperties) (d : Desk) :
    Usage.Logger :=
  (d.logger.setAgent
    { name := r.name.getD name, version := v, enabled := true
      leading := Usage.Logger.standardLeading }).setCloud (r.properties cloud)

theorem lack?_eq_none (complete : ∀ lack, ¬ Lacks r v lack) : r.lack? v = none :=
  Option.eq_none_iff_forall_ne_some.2 fun lack found => complete lack (lacks_of_lack? found)

theorem run_of_unknown (complete : ∀ lack, ¬ Lacks r (r.version.getD version) lack)
    (unknown : Usage.Status.ofName? r.status = none) :
    (r.run name version cloud d).1 = .ok () ∧ (r.run name version cloud d).2.1.reports = [] := by
  simp only [run, lack?_eq_none complete, Usage.Status.parse, unknown]
  exact ⟨trivial, rfl⟩

theorem run_of_known (complete : ∀ lack, ¬ Lacks r (r.version.getD version) lack) {s : Usage.Status}
    (known : Usage.Status.ofName? r.status = some s) :
    (r.run name version cloud d).1 = .ok () ∧
      (r.run name version cloud d).2.1.reports =
        (((r.prepared name (r.version.getD version) cloud d).outcome d.delivery s
          (r.value (r.version.getD version) s)).report.map fun q => (d.now, q)).toList := by
  simp only [run, lack?_eq_none complete, Usage.Status.parse, known, Desk.log]
  split
  · rename_i logged
    obtain ⟨-, rfl, -⟩ := Prod.mk.inj logged |>.imp_right Prod.mk.inj
    exact ⟨rfl, rfl⟩
  · -- a fault of the report is noted in the log, and no more
    rename_i logged
    obtain ⟨-, rfl, -⟩ := Prod.mk.inj logged |>.imp_right Prod.mk.inj
    exact ⟨rfl, List.append_nil _⟩

theorem reporting?_prepared (v : String) : (r.prepared name v cloud d).reporting? = some
    { name := r.name.getD name, version := v, enabled := true
      leading := Usage.Logger.standardLeading } := rfl

/-- A report needs no more than the logger and the instance as they were before, for it leaves the
image out. -/
theorem report_prepared {s : Usage.Status} (present : ¬ Lacks r v .version)
    (named : s.name = r.status) :
    (d.logger.Reaches cloud →
      ((r.prepared name v cloud d).outcome d.delivery s (r.value v s)).report =
        some (r.request name v cloud d.logger.platform)) ∧
      (¬ d.logger.Reaches cloud →
        ((r.prepared name v cloud d).outcome d.delivery s (r.value v s)).report = none) := by
  obtain ⟨image, properties⟩ := r.properties_eq cloud
  have given : (r.prepared name v cloud d).cloud.getD {} = { cloud with image } := properties
  have same : (r.prepared name v cloud d).Reaches { cloud with image } ↔ d.logger.Reaches cloud := by
    constructor
    · rintro ⟨placed, included⟩
      exact ⟨by rwa [Usage.Platform.place_image] at placed, included⟩
    · rintro ⟨placed, included⟩
      exact ⟨by rwa [Usage.Platform.place_image], included⟩
  rw [Usage.Logger.report_outcome (reporting?_prepared name cloud d v), statusText_value present named]
  constructor
  · intro reaches
    rw [Usage.Logger.request_of_reaches _ _ given (same.2 reaches), Usage.Platform.address_image]
    rfl
  · intro cut
    exact Usage.Logger.request_of_not_reaches _ _ given fun reaches => cut (same.1 reaches)

/-- What a complete report comes to. -/
theorem run_of_complete (complete : ∀ lack, ¬ Lacks r (r.version.getD version) lack) :
    (r.run name version cloud d).1 = .ok () ∧
      (Heard r cloud d → (r.run name version cloud d).2.1.reports =
        [(d.now, r.request name (r.version.getD version) cloud d.logger.platform)]) ∧
      (¬ Heard r cloud d → (r.run name version cloud d).2.1.reports = []) := by
  cases found : Usage.Status.ofName? r.status with
  | none =>
    obtain ⟨ok, unreported⟩ := run_of_unknown name cloud d complete found
    have unheard : ¬ Heard r cloud d := fun heard =>
      Usage.Status.ofName?_eq_none.1 found heard.known
    exact ⟨ok, fun heard => absurd heard unheard, fun _ => unreported⟩
  | some s =>
    have named : s.name = r.status := Usage.Status.ofName?_eq_some.1 found
    have known : r.status ∈ Usage.Status.all.map Usage.Status.name :=
      List.mem_map.2 ⟨s, s.mem_all, named⟩
    obtain ⟨ok, reports⟩ := run_of_known name cloud d complete found
    obtain ⟨made, unmade⟩ := report_prepared name cloud d
      (complete .version) named
    refine ⟨ok, ?_, ?_⟩
    · intro heard
      rw [reports, made heard.toReaches]
      rfl
    · intro unheard
      rw [reports, unmade fun reaches => unheard ⟨reaches, known⟩]
      rfl

/-- No check and no report looks at the image. -/
theorem lacks_image {lack : Lack} (image : Option String) :
    Lacks { r with image } v lack ↔ Lacks r v lack := by
  rw [← lack?_eq_some, ← lack?_eq_some]
  rfl

theorem heard_image (image : Option String) : Heard { r with image } cloud d ↔ Heard r cloud d :=
  ⟨fun heard => ⟨heard.toReaches, heard.known⟩, fun heard => ⟨heard.toReaches, heard.known⟩⟩

theorem reports_image (image : Option String) :
    ({ r with image }.run name version cloud d).2.1.reports =
      (r.run name version cloud d).2.1.reports := by
  by_cases complete : ∀ lack, ¬ Lacks r (r.version.getD version) lack
  · have same : ∀ lack, ¬ Lacks { r with image } (r.version.getD version) lack := fun lack lacks =>
      complete lack ((lacks_image image).1 lacks)
    obtain ⟨-, made, unmade⟩ :=
      run_of_complete name cloud d complete
    obtain ⟨-, made', unmade'⟩ :=
      run_of_complete name cloud d same
    by_cases heard : Heard r cloud d
    · rw [made heard, made' ((heard_image cloud d image).2 heard)]
      rfl
    · rw [unmade heard, unmade' fun other => heard ((heard_image cloud d image).1 other)]
  · obtain ⟨lack, lacks⟩ := Classical.not_forall_not.1 complete
    obtain ⟨entries, run⟩ := run_of_lack name cloud d lacks
    obtain ⟨entries', run'⟩ := run_of_lack name cloud d ((lacks_image image).2 lacks)
    rw [run, run']
    rfl

end

end

/-- A report that lacks something ends in the error that names it, makes no report and leaves the
logger as it was. Any other one ends well, however the backend takes reports: it makes the one
request if the status is known, the location of the latest platform is there and the project is not
excluded, and none else. The image is no part of it. -/
theorem all_or_nothing (r : StatusReport) (name version : String) (cloud : CloudProperties)
    (d : Desk) :
    let v := r.version.getD version
    let after := r.run name version cloud d
    (∀ lack, after.1 = .error lack ↔ Lacks r v lack) ∧
      (after.1 = .ok () ↔ ∀ lack, ¬ Lacks r v lack) ∧
      ((∃ lack, Lacks r v lack) → after.2.1.reports = [] ∧ after.2.2 = d) ∧
      ((∀ lack, ¬ Lacks r v lack) →
        (Heard r cloud d →
          after.2.1.reports = [(d.now, r.request name v cloud d.logger.platform)]) ∧
        (¬ Heard r cloud d → after.2.1.reports = [])) ∧
      ∀ image, ({ r with image }.run name version cloud d).2.1.reports = after.2.1.reports := by
  intro v after
  by_cases complete : ∀ lack, ¬ Lacks r v lack
  · obtain ⟨ok, reports⟩ := run_of_complete name cloud d complete
    have sound : after.1 = .ok () := ok
    refine ⟨fun lack => ?_, ⟨fun _ => complete, fun _ => sound⟩,
      fun ⟨lack, lacks⟩ => absurd lacks (complete lack), fun _ => reports, reports_image name cloud d⟩
    rw [sound]
    exact ⟨nofun, fun lacks => absurd lacks (complete lack)⟩
  · obtain ⟨lack, lacks⟩ := Classical.not_forall_not.1 complete
    obtain ⟨entries, run⟩ := run_of_lack name cloud d lacks
    have refused : after = (.error lack, .ofEntries d.now entries, d) := run
    refine ⟨fun other => ?_, ?_, fun _ => ?_, fun none_lacks => absurd none_lacks complete,
      reports_image name cloud d⟩
    · rw [refused]
      constructor
      · intro same
        obtain rfl := Except.error.inj same
        exact lacks
      · intro others
        -- there is only one first fault
        have found := lack?_eq_some.2 lacks
        rw [lack?_eq_some.2 others] at found
        rw [Option.some.inj found]
    · rw [refused]
      exact ⟨nofun, fun none_lacks => absurd none_lacks complete⟩
    · rw [refused]
      exact ⟨rfl, rfl⟩

/-- An empty version that is given counts, and a report that the backend refuses is still one. -/
theorem all_or_nothing_updated :
    let d : Desk :=
      { logger := { calls := [(.started, 3)] }, now := 7, delivery := fun _ => some (.request "down") }
    let cloud : CloudProperties := { projectId := "p", zone := "z", instanceName := "i" }
    let r : StatusReport := { name := some "a b", status := "UPDATED", image := some "x" }
    (∃ lack, Lacks { r with version := some "" } "" lack) ∧
      ({ r with version := some "" }.run "agent" "1.0" cloud d).2.2 = d ∧
      (∀ lack, ¬ Lacks r "1.0" lack) ∧ Heard r cloud d ∧
      (r.run "agent" "1.0" cloud d).1 = .ok () ∧
      (r.run "agent" "1.0" cloud d).2.1.reports =
        [(7, ⟨"https://compute.googleapis.com/compute/v1/projects/p/zones/z/instances/i",
          "gwap/ab/1.0/UPDATED/1.0", some "p"⟩)] := by
  intro d cloud r
  have lacks : Lacks { r with version := some "" } "" .version := .version rfl rfl
  have complete : ∀ lack, ¬ Lacks r "1.0" lack := by
    intro lack lacks
    have found := lack?_eq_some.2 lacks
    cases found
  have heard : Heard r cloud d := ⟨⟨by decide, by decide⟩, by decide⟩
  have unchanged := (all_or_nothing { r with version := some "" } "agent" "1.0" cloud d).2.2.1
    ⟨.version, lacks⟩
  obtain ⟨-, ok, -, made, -⟩ := all_or_nothing r "agent" "1.0" cloud d
  refine ⟨⟨_, lacks⟩, unchanged.2, complete, heard, ok.2 complete, ?_⟩
  exact ((made complete).1 heard).trans (by decide)

end Agent.StatusReport

end ChannelAgent
