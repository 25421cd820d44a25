import WqcNode.Application.PcsMachine
import WqcNode.Infra.CoreClient

/-! # Jobs that wait for core (`is_core_down_error` in `application/pcs_outbox.rs`)

Whether a build failed because core is down is found out from the text of the error, and the text of
core's own answers is part of some.

* `core_down_iff`: a job is left for later exactly if core did not answer its call, for whatever
  reason, or the answer itself says so. -/

namespace WqcNode.Application.PcsCoreDown

open WqcNode.Lib.Text WqcNode.Lib.Machine WqcNode.Infra.CoreClient
open WqcNode.Application.PcsMachine (isCoreDownError proveFailed openCallFailed)

/-- The error quotes an answer of core that was no `200 OK`, or could not be parsed. -/
inductive Quotes (err text : String) : Prop
  | status (h : err = "wqc-core leaf_pcs error status: " ++ text)
  | parse (h : err = "Failed to parse leaf_pcs response: " ++ text)

theorem isCoreDownError_append {front : String} (h : Apart front "unhealthy (backoff)")
    (h' : Apart front "health check failed")
    (h'' : Apart front "Failed to send leaf_pcs request to wqc-core") (text : String) :
    isCoreDownError (front ++ text) = isCoreDownError text := by
  rw [isCoreDownError, contains_append h, contains_append h', contains_append h'', isCoreDownError]

theorem Quotes.coreDown {err text : String} (h : Quotes err text) :
    isCoreDownError err = isCoreDownError text := by
  cases h with
  | status h =>
    rw [h]
    exact isCoreDownError_append (by decide +kernel) (by decide +kernel) (by decide +kernel) text
  | parse h =>
    rw [h]
    exact isCoreDownError_append (by decide +kernel) (by decide +kernel) (by decide +kernel) text

theorem contains_front {front part : String} (h : contains front part = true) (text : String) :
    contains (front ++ text) part = true := by
  rw [contains_iff] at h ⊢
  rw [String.toList_append]
  exact h.trans (List.prefix_append _ _).isInfix

/-- The errors of a call that core did not answer. -/
theorem missed_coreDown {log : List (ℕ × Event)} {i : ℕ} {err : String}
    (h : Missed .leafPcs log i err) : isCoreDownError err = true := by
  unfold isCoreDownError
  rw [Bool.or_eq_true, Bool.or_eq_true]
  rcases h.2 with rfl | ⟨e, rfl⟩ | ⟨e, rfl⟩
  · exact .inl (.inl (by decide +kernel))
  · exact .inl (.inr (contains_front (by decide +kernel) e))
  · exact .inr (contains_front (by decide +kernel) e)

/-- The errors of a call that core answered. -/
theorem rejected_quotes {log : List (ℕ × Event)} {i : ℕ} {err : String}
    (h : Rejected .leafPcs log i err) : ∃ text, Quotes err text := by
  rcases h.2 with ⟨status, text, rfl⟩ | ⟨e, rfl⟩
  · exact ⟨_, .status rfl⟩
  · exact ⟨_, .parse rfl⟩

theorem proveFailed_iff (err : String) :
    proveFailed err = .release (.ok .skippedCoreDown) ↔ isCoreDownError err = true := by
  unfold proveFailed
  split_ifs <;> simp_all

theorem openCallFailed_iff (err : String) :
    openCallFailed err = .release (.ok .skippedCoreDown) ↔ isCoreDownError err = true := by
  unfold openCallFailed
  split_ifs <;> simp_all

section Run

variable {ρ : Type} {failThreshold : UInt32} {backoff : ℚ} {as : List (Act ρ)} {s : State ρ} {i : ℕ}
  {call : Call ρ} {err : String}

/-- **Main result.** In every run of the client, with any other calls side by side, a job whose call
failed is left for later if and only if core did not answer the call, or its answer says that core is
down; whether the proof was retained or fetched for an open call. -/
theorem core_down_iff
    (h : run (step failThreshold backoff) init as = some s)
    (hcall : s.calls[i]? = some call) (hkind : call.kind = .leafPcs)
    (hdone : call.pc = .done (.error err)) :
    (proveFailed err = .release (.ok .skippedCoreDown) ↔
        (i, .answered) ∉ s.log ∨ ∃ text, Quotes err text ∧ isCoreDownError text = true) ∧
      (openCallFailed err = .release (.ok .skippedCoreDown) ↔
        (i, .answered) ∉ s.log ∨ ∃ text, Quotes err text ∧ isCoreDownError text = true) := by
  have hiff : isCoreDownError err = true ↔
      (i, .answered) ∉ s.log ∨ ∃ text, Quotes err text ∧ isCoreDownError text = true := by
    have hends := (run_inv_client h).calls i call hcall
    rw [hkind, hdone] at hends
    rcases hends with hmissed | hrejected
    · exact ⟨fun _ => .inl hmissed.1, fun _ => missed_coreDown hmissed⟩
    · obtain ⟨text, hquotes⟩ := rejected_quotes hrejected
      constructor
      · intro hdown
        exact .inr ⟨text, hquotes, hquotes.coreDown ▸ hdown⟩
      · rintro (hunanswered | ⟨text', hquotes', hdown⟩)
        · exact absurd hrejected.1 hunanswered
        · rw [hquotes'.coreDown]
          exact hdown
  exact ⟨(proveFailed_iff err).trans hiff, (openCallFailed_iff err).trans hiff⟩

end Run

/-- Core answers, but the text of its answer names a failed health check of its own. -/
def quoting : Choice Unit :=
  ⟨.answered "200 OK" true, .status "503 Service Unavailable" "gpu: health check failed"⟩

def quotingRun : List (Act Unit) := .call .leafPcs :: List.replicate 6 (.move 0 quoting)

theorem core_down_iff_quoting : ∃ (s : State Unit) (err : String),
    run (step 3 30) init quotingRun = some s ∧ (0, .answered) ∈ s.log ∧
      proveFailed err = .release (.ok .skippedCoreDown) := by
  obtain ⟨s, hrun, hlog, hcalls⟩ : ∃ s : State Unit, run (step 3 30) init quotingRun = some s ∧
      (0, .answered) ∈ s.log ∧ s.calls[0]? = some ⟨.leafPcs, .done (.error
        (Kind.leafPcs.statusText "503 Service Unavailable" "gpu: health check failed"))⟩ :=
    ⟨_, rfl, .head _, rfl⟩
  refine ⟨s, _, hrun, hlog, (core_down_iff hrun hcalls rfl rfl).1.mpr (.inr ⟨_, .status rfl, ?_⟩)⟩
  decide +kernel

end WqcNode.Application.PcsCoreDown
