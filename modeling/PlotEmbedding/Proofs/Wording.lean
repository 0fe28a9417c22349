import Mathlib
import PlotEmbedding.Proofs.FillingSize
import PlotEmbedding.Proofs.Text.Heading
import PlotEmbedding.Proofs.ToldFailures

/-!
# Wordings

The wording of a failure, an outcome or a report opens with the heading of its form, and no heading
begins with another one. Behind the heading come the fields, and all but the last of them end at a
delimiter that they do not hold. So wordings are taken apart in one way only, although the texts
that failures carry are any texts at all, and may look like the wording of another failure.

`wordings_tell_apart` says that the wordings of different failures, of different outcomes and of
different handles are different. Two reports have the same wording if they say the same, and
otherwise only if they are about the same kind of step that failed in the same way for two windows.
The error of a strict embedder keeps the wording of what went wrong, and that is enough to tell what
it was.
-/

namespace PlotEmbedding

open Text

variable {ι ν : Type}

/-! ## Handles -/

/-- Integers of which the bits have the same text are the same. -/
theorem toUInt64_inj_of_hexText {width : Nat} {v w : Int64}
    (same : hexText width v.toUInt64.toNat = hexText width w.toUInt64.toNat) : v = w :=
  congrArg Int64.ofUInt64 (UInt64.toNat_inj.mp (hexText_inj same))

/-- Handles with the same text are the same. -/
theorem Handle.text_injective : Function.Injective Handle.text := by
  intro h k same
  show Handle.mk h.value = Handle.mk k.value
  rw [toUInt64_inj_of_hexText same]

/-! ## Failures -/

namespace Failure

/-- The forms that the wording of a failure can take. -/
inductive Form where
  | hookRegistration
  | hookRemoval
  | invalidHostWindow
  | windowQuery
  | unsupported
  | loneSurrogate
  deriving DecidableEq

namespace Form

/-- What the wordings of a form begin with. -/
def heading : Form → String
  | hookRegistration => "activation hook registration failed: "
  | hookRemoval => "activation hook removal failed: "
  | invalidHostWindow => "invalid host window was given: "
  | windowQuery => "window query "
  | unsupported => "window embedding is only supported on windows"
  | loneSurrogate => "invalid utf-16: lone surrogate found"

theorem prefixFree_heading : PrefixFree heading := by
  intro k k'
  cases k <;> cases k' <;> decide

end Form

/-- The form of the wording of a failure. -/
def form : Failure → Form
  | embedding (.hookRegistration _) => .hookRegistration
  | embedding (.hookRemoval _) => .hookRemoval
  | embedding (.invalidHostWindow _) => .invalidHostWindow
  | embedding (.windowQuery _) => .windowQuery
  | embedding .unsupported => .unsupported
  | loneSurrogate => .loneSurrogate

/-- What comes behind the heading. -/
def details : Failure → String
  | embedding (.hookRegistration reason) => reason
  | embedding (.hookRemoval reason) => reason
  | embedding (.invalidHostWindow handle) => hexText 0 handle.toUInt64.toNat
  | embedding (.windowQuery query) => query ++ " failed"
  | embedding .unsupported => ""
  | loneSurrogate => ""

/-- The wording of a failure is the heading of its form and the details. -/
theorem message_eq (failure : Failure) :
    failure.message = failure.form.heading ++ failure.details := by
  rcases failure with ⟨_ | _ | _ | query | _⟩ | _
  · rfl
  · rfl
  · rfl
  · exact String.append_assoc
  · rfl
  · rfl

/-- Failures with the same wording are the same. -/
theorem message_injective : Function.Injective message := by
  intro failure failure' same
  rw [message_eq, message_eq] at same
  obtain ⟨form, details⟩ := Form.prefixFree_heading.eq_of_append_eq same
  -- Failures of one form differ in what they carry only.
  rcases failure with ⟨reason | reason | handle | query | _⟩ | _ <;>
    rcases failure' with ⟨reason' | reason' | handle' | query' | _⟩ | _ <;> cases form
  · rw [show reason = reason' from details]
  · rw [show reason = reason' from details]
  · rw [toUInt64_inj_of_hexText details]
  · rw [String.append_left_inj _ |>.mp details]
  · rfl
  · rfl

end Failure

/-- Errors with the same wording are the same. -/
theorem EmbedError.message_injective : Function.Injective EmbedError.message := fun _ _ same =>
  Failure.embedding.inj (Failure.message_injective same)

/-! ## Outcomes -/

/-- Outcomes of installing with the same text are the same. -/
theorem InstallOutcome.text_injective : Function.Injective InstallOutcome.text := by
  intro outcome outcome' same
  cases outcome <;> cases outcome' <;> first | rfl | exact absurd same (by decide)

/-- Sizes with the same text are the same: the width ends at the cross. -/
theorem Size.text_injective : Function.Injective Size.text := by
  intro size size' same
  unfold Size.text at same
  rw [String.append_assoc, String.append_assoc] at same
  obtain ⟨widths, heights⟩ := eq_of_delimited_eq rfl (notMem_repr _).2 (notMem_repr _).2 same
  exact Size.eq_of_toInt (Int.repr_inj.mp widths) (Int.repr_inj.mp heights)

namespace ActivationOutcome

/-- The forms that the text of an outcome can take. -/
inductive Form where
  | notActivation
  | reentrant
  | inactive
  | classMismatch
  | alreadyEmbedded
  | embedded
  deriving DecidableEq

namespace Form

/-- What the texts of a form begin with. -/
def heading : Form → String
  | notActivation => "notactivation"
  | reentrant => "reentrant"
  | inactive => "inactive"
  | classMismatch => "classmismatch"
  | alreadyEmbedded => "alreadyembedded"
  | embedded => "embedded "

theorem prefixFree_heading : PrefixFree heading := by
  intro k k'
  cases k <;> cases k' <;> decide

end Form

/-- The form of the text of an outcome. -/
def form : ActivationOutcome → Form
  | notActivation => .notActivation
  | reentrant => .reentrant
  | inactive => .inactive
  | classMismatch => .classMismatch
  | alreadyEmbedded => .alreadyEmbedded
  | embedded _ => .embedded

/-- What comes behind the heading. -/
def details : ActivationOutcome → String
  | embedded size => size.text
  | _ => ""

/-- The text of an outcome is the heading of its form and the details. -/
theorem text_eq (outcome : ActivationOutcome) :
    outcome.text = outcome.form.heading ++ outcome.details := by
  cases outcome <;> rfl

/-- Outcomes of an event with the same text are the same. -/
theorem text_injective : Function.Injective text := by
  intro outcome outcome' same
  rw [text_eq, text_eq] at same
  obtain ⟨form, details⟩ := Form.prefixFree_heading.eq_of_append_eq same
  cases outcome with
  | embedded size =>
    cases outcome' with
    | embedded size' => rw [Size.text_injective details]
    | _ => cases form
  | _ =>
    cases outcome' <;> cases form
    rfl

end ActivationOutcome

/-! ## Reports -/

namespace Report

/-- The forms that the wording of a report can take. -/
inductive Form where
  | alreadyInstalled
  | invalidHost
  | installed
  | registrationFailed
  | removalFailed
  | uninstalled
  | activation
  | classUnknown
  | stepFailed (kind : RequestKind)
  | areaUnknown
  | embedded
  deriving DecidableEq

namespace Form

/-- What the wordings of a form begin with. -/
def heading : Form → String
  | alreadyInstalled => "install: already installed, host: "
  | invalidHost => "install: invalid host: "
  | installed => "install: host: "
  | registrationFailed => "install: activation hook registration failed: "
  | removalFailed => "uninstall: hook: "
  | uninstalled => "uninstall: host: "
  | activation => "on_activating: win: "
  | classUnknown => "process: win: "
  | stepFailed kind => "embed: " ++ kind.name ++ " failed: "
  | areaUnknown => "embed: host: "
  | embedded => "embed: win: "

/-- All forms. -/
def all : List Form :=
  [alreadyInstalled, invalidHost, installed, registrationFailed, removalFailed, uninstalled,
    activation, classUnknown, areaUnknown, embedded, stepFailed .isWindow, stepFailed .className,
    stepFailed .parent, stepFailed .clientArea, stepFailed .setStyle, stepFailed .setExStyle,
    stepFailed .removeMenu, stepFailed .clearTitle, stepFailed .setParent, stepFailed .place,
    stepFailed .postMessage, stepFailed .installHook, stepFailed .removeHook, stepFailed .forward]

theorem mem_all (k : Form) : k ∈ all := by
  cases k with
  | stepFailed kind => cases kind <;> decide
  | _ => decide

theorem prefixFree_heading : PrefixFree heading := by
  have checked : ∀ k ∈ all, ∀ k' ∈ all, k.heading.toList <+: k'.heading.toList → k = k' := by
    decide +kernel
  exact fun k k' => checked k (mem_all k) k' (mem_all k')

end Form

/-- The form of the wording of a report. -/
def form : Report → Form
  | alreadyInstalled _ _ => .alreadyInstalled
  | invalidHost _ => .invalidHost
  | installed _ _ _ => .installed
  | registrationFailed _ => .registrationFailed
  | removalFailed _ _ => .removalFailed
  | uninstalled _ _ => .uninstalled
  | activation _ _ => .activation
  | classUnknown _ _ => .classUnknown
  | stepFailed step _ => .stepFailed step.kind
  | areaUnknown _ _ => .areaUnknown
  | embedded _ _ _ => .embedded

/-- What comes behind the heading. -/
def details : Report → String
  | alreadyInstalled host hook => host.text ++ (", hook: " ++ hookText hook)
  | invalidHost host => host.text
  | installed host hook plotClass =>
    host.text ++ (", hook: " ++ (hookText hook ++ (", class: " ++ plotClass)))
  | registrationFailed failure => failure.message
  | removalFailed hook failure => hookText hook ++ (", " ++ failure.message)
  | uninstalled host hook => host.text ++ (", hook: " ++ hookText hook)
  | activation wparam outcome => hexText 0 wparam.toNat ++ (", outcome: " ++ outcome.text)
  | classUnknown win failure => win.text ++ (", " ++ failure.message)
  | stepFailed _ failure => failure.message
  | areaUnknown host failure => host.text ++ (", " ++ failure.message)
  | embedded win host size =>
    win.text ++ (", host: " ++ (host.text ++
      (", w: " ++ (size.width.toInt.repr ++ (", h: " ++ size.height.toInt.repr)))))

/-- The wording of a report is the heading of its form and the details. -/
theorem message_eq (report : Report) : report.message = report.form.heading ++ report.details := by
  cases report
  case invalidHost => rfl
  case registrationFailed => rfl
  case stepFailed => rfl
  all_goals
    show _ ++ _ = _ ++ (_ ++ _)
    simp only [String.append_assoc]
    rfl

/-- Hooks with the same text are the same. -/
theorem hookText_injective : Function.Injective hookText := by
  intro hook hook' same
  show Hook.mk hook.number = Hook.mk hook'.number
  rw [Int.repr_inj.mp same]

/-! ### Fields -/

/-- A handle has no comma in its text. -/
theorem fieldText_handle : FieldText ',' Handle.text where
  injective := Handle.text_injective
  lacks _ := comma_notMem_hexText _ _

/-- A number in decimal has no comma. -/
theorem fieldText_repr : FieldText ',' Int.repr where
  injective _ _ := Int.repr_inj.mp
  lacks z := (notMem_repr z).1

/-- A hook has no comma in its text. -/
theorem fieldText_hook : FieldText ',' hookText where
  injective := hookText_injective
  lacks hook := (notMem_repr hook.number).1

/-- The bits of a window have no comma in their text. -/
theorem fieldText_bits : FieldText ',' fun wparam : UInt64 => hexText 0 wparam.toNat where
  injective _ _ same := UInt64.toNat_inj.mp (hexText_inj same)
  lacks _ := comma_notMem_hexText _ _

/-- Reports of the same thing, whatever window a step was skipped for. -/
inductive Alike : Report → Report → Prop where
  /-- The reports are the same. -/
  | refl (report : Report) : Alike report report
  /-- Steps of one kind were skipped, after the same failure. -/
  | stepFailed {step step' : Mutation} (failure : Failure) : step.kind = step'.kind →
      Alike (.stepFailed step failure) (.stepFailed step' failure)

/-- The form and the details are enough to tell what a report is about. -/
theorem alike_of_details {report report' : Report} (form : report.form = report'.form)
    (details : report.details = report'.details) : Alike report report' := by
  cases report with
  | alreadyInstalled host hook =>
    cases report' with
    | alreadyInstalled host' hook' =>
      -- The text of a handle ends where the delimiter begins, and so the rest can be compared
      -- alone.
      obtain ⟨rfl, hooks⟩ := fieldText_handle.eq_of_delimited_eq rfl details
      rw [hookText_injective hooks]
      exact .refl _
    | _ => cases form
  | invalidHost host =>
    cases report' with
    | invalidHost host' =>
      rw [Handle.text_injective details]
      exact .refl _
    | _ => cases form
  | installed host hook plotClass =>
    cases report' with
    | installed host' hook' plotClass' =>
      obtain ⟨rfl, behind⟩ := fieldText_handle.eq_of_delimited_eq rfl details
      obtain ⟨rfl, classes⟩ := fieldText_hook.eq_of_delimited_eq rfl behind
      rw [classes]
      exact .refl _
    | _ => cases form
  | registrationFailed failure =>
    cases report' with
    | registrationFailed failure' =>
      rw [Failure.message_injective details]
      exact .refl _
    | _ => cases form
  | removalFailed hook failure =>
    cases report' with
    | removalFailed hook' failure' =>
      obtain ⟨rfl, failures⟩ := fieldText_hook.eq_of_delimited_eq rfl details
      rw [Failure.message_injective failures]
      exact .refl _
    | _ => cases form
  | uninstalled host hook =>
    cases report' with
    | uninstalled host' hook' =>
      obtain ⟨rfl, hooks⟩ := fieldText_handle.eq_of_delimited_eq rfl details
      rw [hookText_injective hooks]
      exact .refl _
    | _ => cases form
  | activation wparam outcome =>
    cases report' with
    | activation wparam' outcome' =>
      obtain ⟨rfl, outcomes⟩ := fieldText_bits.eq_of_delimited_eq rfl details
      rw [ActivationOutcome.text_injective outcomes]
      exact .refl _
    | _ => cases form
  | classUnknown win failure =>
    cases report' with
    | classUnknown win' failure' =>
      obtain ⟨rfl, failures⟩ := fieldText_handle.eq_of_delimited_eq rfl details
      rw [Failure.message_injective failures]
      exact .refl _
    | _ => cases form
  | stepFailed step failure =>
    cases report' with
    | stepFailed step' failure' =>
      rw [Failure.message_injective details]
      exact .stepFailed _ (Form.stepFailed.inj form)
    | _ => cases form
  | areaUnknown host failure =>
    cases report' with
    | areaUnknown host' failure' =>
      obtain ⟨rfl, failures⟩ := fieldText_handle.eq_of_delimited_eq rfl details
      rw [Failure.message_injective failures]
      exact .refl _
    | _ => cases form
  | embedded win host size =>
    cases report' with
    | embedded win' host' size' =>
      obtain ⟨rfl, behind⟩ := fieldText_handle.eq_of_delimited_eq rfl details
      obtain ⟨rfl, sizes⟩ := fieldText_handle.eq_of_delimited_eq rfl behind
      obtain ⟨widths, heights⟩ := fieldText_repr.eq_of_delimited_eq rfl sizes
      rw [Size.eq_of_toInt widths (Int.repr_inj.mp heights)]
      exact .refl _
    | _ => cases form

/-- Reports are worded alike if and only if they are alike. -/
theorem message_eq_iff {report report' : Report} :
    report.message = report'.message ↔ Alike report report' := by
  constructor
  · intro same
    rw [message_eq, message_eq] at same
    obtain ⟨form, details⟩ := Form.prefixFree_heading.eq_of_append_eq same
    exact alike_of_details form details
  · rintro (_ | ⟨failure, kinds⟩)
    · rfl
    · show "embed: " ++ _ ++ _ ++ _ = "embed: " ++ _ ++ _ ++ _
      rw [kinds]

end Report

/-! ## The errors of strict embedders -/

namespace Embedder

variable {x y after after' : Embedder} {host host' : Handle} {acts acts' : List (Act ι ν)}
  {failure failure' : Failure}

/-- An installation that ends with an error was told of one failure, and keeps its wording. -/
theorem Installs.exists_cause (h : x.Installs host acts (.returned (.error failure, after))) :
    ∃ cause, Act.failures acts = [(.installHook, cause)] ∧
      failure = .embedding (.hookRegistration cause.message) := by
  cases h with
  | @failed _ _ cause _ _ _ => exact ⟨cause, rfl, rfl⟩

/-- The wordings of two such errors are the same only after the same failure. -/
theorem Installs.exists_causes (h : x.Installs host acts (.returned (.error failure, after)))
    (h' : y.Installs host' acts' (.returned (.error failure', after'))) :
    ∃ cause cause', Act.failures acts = [(.installHook, cause)] ∧
      Act.failures acts' = [(.installHook, cause')] ∧
      (failure.message = failure'.message ↔ cause = cause') := by
  obtain ⟨cause, told, rfl⟩ := h.exists_cause
  obtain ⟨cause', told', rfl⟩ := h'.exists_cause
  refine ⟨cause, cause', told, told', ?_, fun same => same ▸ rfl⟩
  intro same
  have reasons := EmbedError.hookRegistration.inj (EmbedError.message_injective same)
  exact Failure.message_injective reasons

end Embedder

/-- The wordings of different failures, outcomes and handles are different, and so are those of
reports that are not alike. The errors of two installations have the same wording if and only if the
hook was refused to both after the same failure. -/
theorem wordings_tell_apart (ι ν : Type) :
    Function.Injective Failure.message ∧ Function.Injective InstallOutcome.text ∧
    Function.Injective ActivationOutcome.text ∧ Function.Injective Handle.text ∧
    (∀ report report' : Report, report.message = report'.message ↔ report.Alike report') ∧
    ∀ (x y after after' : Embedder) (host host' : Handle) (acts acts' : List (Act ι ν))
      (failure failure' : Failure),
      (x.install host).Allows acts (.returned (.error failure, after)) →
      (y.install host').Allows acts' (.returned (.error failure', after')) →
      ∃ cause cause', Act.failures acts = [(.installHook, cause)] ∧
        Act.failures acts' = [(.installHook, cause')] ∧
        (failure.message = failure'.message ↔ cause = cause') := by
  refine ⟨Failure.message_injective, InstallOutcome.text_injective,
    ActivationOutcome.text_injective, Handle.text_injective, fun _ _ => Report.message_eq_iff, ?_⟩
  intro x y after after' host host' acts acts' failure failure' run run'
  exact (Embedder.installs_of_allows run).exists_causes (Embedder.installs_of_allows run')

/-- A strict embedder to which the hook is refused twice, once with the wording of the other failure
inside the failure, has two errors of different wording. -/
theorem wordings_tell_apart_of_refusals :
    ∃ acts acts' : List (Act Nat Nat), ∃ failure failure' after after',
      ((Embedder.new { strict := true }).install ⟨1⟩).Allows acts
        (.returned (.error failure, after)) ∧
      ((Embedder.new { strict := true }).install ⟨1⟩).Allows acts'
        (.returned (.error failure', after')) ∧
      failure.message ≠ failure'.message := by
  have refused (cause : Failure) : ((Embedder.new { strict := true }).install ⟨1⟩).Allows
      ([.call (.isWindow ⟨1⟩) [] (.returned true),
        .call .installHook [] (.returned (.error cause))] : List (Act Nat Nat))
      (.returned (.error (.embedding (.hookRegistration cause.message)),
        Embedder.new { strict := true })) :=
    .answered (.answered (.finish _))
  have run := refused .loneSurrogate
  have run' := refused (.embedding (.hookRegistration "invalid utf-16: lone surrogate found"))
  refine ⟨_, _, _, _, _, _, run, run', fun same => ?_⟩
  -- The wordings are the same just if the causes are, and these are not.
  obtain ⟨cause, cause', told, told', causes⟩ :=
    (wordings_tell_apart Nat Nat).2.2.2.2.2 _ _ _ _ _ _ _ _ _ _ run run'
  cases told
  cases told'
  exact nomatch causes.mp same

end PlotEmbedding
