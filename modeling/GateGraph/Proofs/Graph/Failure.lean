import GateGraph.Proofs.Graph.Transition

/-!
# `GateGraph.Proofs.Graph.Failure` — failed steps leave no trace

A step may fail at several points, and on the way it reads the graph several times. It writes only when all
its checks are behind it, the one of its name included: no counter has moved by then and no id has been given.
A step that has failed leaves the very graph that it was given, with all its stores (`Graph.Untouched`). So a
failing step in a script might as well not have been there, and scripts can be cleared of their failures
without anybody noticing.

## Contents
- `Graph.Untouched`, with `untouched_iff`.
- `runOn_of_error`, for one step, and `Operation.runOn_of_error` for the operations that are offered.
- `Script.trace`, the steps of a script with their outcomes; `run_of_sublist`: any failures may be left out.
- `failure_traceless`, both together.
-/

namespace GateGraph

/-! ## One step -/

/-- No store of a graph has been written to. -/
structure Graph.Untouched (g' g : Graph) : Prop where
  name : g'.name = g.name
  nodes : g'.nodes = g.nodes
  /-- The edges have stayed as they were, in either direction. -/
  children : g'.children = g.children
  parents : g'.parents = g.parents
  names : g'.names = g.names
  /-- No automatic name and no id has been used up. -/
  counters : g'.counters = g.counters
  lastId : g'.lastId = g.lastId

/-- These are all the stores that there are. -/
theorem Graph.untouched_iff {g' g : Graph} : g'.Untouched g ↔ g' = g := by
  constructor
  · rintro ⟨hname, hnodes, hchildren, hparents, hnames, hcounters, hlastId⟩
    cases g'
    cases g
    congr
  · rintro rfl
    exact ⟨rfl, rfl, rfl, rfl, rfl, rfl, rfl⟩

/-- **A step that fails leaves the graph as it is.** -/
theorem Step.runOn_of_error {s : Step} {g : Graph} {e : Error} (h : (s.action.runOn g).1 = .error e) :
    (s.action.runOn g).2 = g := by
  have ht := s.transition g
  rw [h] at ht
  generalize (s.action.runOn g).2 = g' at ht
  cases ht
  rfl

theorem Operation.runOn_of_error {b : Builder NodeId} (hb : Operation b) {g : Graph} {e : Error}
    (h : (b.runOn g).1 = .error e) : (b.runOn g).2 = g := by
  obtain ⟨s, rfl⟩ := (operation_iff b).mp hb
  exact s.runOn_of_error h

/-! ## Scripts without their failures -/

namespace Script

/-- A step together with how it has ended. -/
abbrev Entry := Step × Except Error NodeId

/-- The step has succeeded. -/
def Entry.isSuccess (entry : Entry) : Bool := entry.2.isOk

/-- The steps of a script, each with its outcome. -/
def trace (steps : List Step) (g : Graph) : List Entry := steps.zip (run steps g).1

theorem trace_cons (s : Step) (rest : List Step) (g : Graph) :
    trace (s :: rest) g = (s, (s.action.runOn g).1) :: trace rest (s.action.runOn g).2 := rfl

@[simp] theorem map_snd_trace (steps : List Step) (g : Graph) :
    (trace steps g).map (·.2) = (run steps g).1 :=
  List.map_snd_zip (Nat.le_of_eq (length_run steps g))

/-- An entry that is left out of a trace, while all successes are kept, is a failure. -/
theorem isSuccess_eq_false_of_left_out {entry : Entry} {kept rest : List Entry}
    (hsub : kept.Sublist rest)
    (hkeep : kept.filter Entry.isSuccess = (entry :: rest).filter Entry.isSuccess) :
    entry.isSuccess = false := by
  cases hsuccess : entry.isSuccess with
  | false => rfl
  | true =>
      -- there are not so many successes left
      have hle := (hsub.filter Entry.isSuccess).length_le
      rw [hkeep, List.filter_cons_of_pos hsuccess, List.length_cons] at hle
      exact absurd hle (Nat.not_succ_le_self _)

/-- **Any failures may be left out of a script.** The steps that are kept, among them all that succeed, have
    the same outcomes as before, and the final graph is the same. -/
theorem run_of_sublist {steps : List Step} {g : Graph} {kept : List Entry}
    (hsub : kept.Sublist (trace steps g))
    (hkeep : kept.filter Entry.isSuccess = (trace steps g).filter Entry.isSuccess) :
    run (kept.map (·.1)) g = (kept.map (·.2), (run steps g).2) := by
  -- one step of the script after another, each of them kept or left out
  induction steps generalizing g kept with
  | nil =>
      obtain rfl := List.sublist_nil.mp hsub
      rfl
  | cons s rest ih =>
      rw [trace_cons] at hsub hkeep
      cases hsub with
      | cons _ hsub =>
          have hfailed := isSuccess_eq_false_of_left_out hsub hkeep
          rw [List.filter_cons_of_neg (by simp [hfailed])] at hkeep
          have hsame : (s.action.runOn g).2 = g := by
            cases houtcome : (s.action.runOn g).1 with
            | error e => exact s.runOn_of_error houtcome
            | ok id =>
                rw [houtcome] at hfailed
                cases hfailed
          rw [hsame] at hsub hkeep
          rw [ih hsub hkeep, run_cons, hsame]
      | @cons_cons kept' _ _ hsub =>
          have hkeep' : kept'.filter Entry.isSuccess =
              (trace rest (s.action.runOn g).2).filter Entry.isSuccess := by
            cases hsuccess : Entry.isSuccess (s, (s.action.runOn g).1) with
            | true =>
                rw [List.filter_cons_of_pos hsuccess, List.filter_cons_of_pos hsuccess] at hkeep
                exact List.tail_eq_of_cons_eq hkeep
            | false =>
                rw [List.filter_cons_of_neg (by simp [hsuccess]),
                  List.filter_cons_of_neg (by simp [hsuccess])] at hkeep
                exact hkeep
          rw [List.map_cons, run_cons, ih hsub hkeep']
          rfl

/-- The steps of a script that succeed. -/
def successful (steps : List Step) (g : Graph) : List Step :=
  ((trace steps g).filter Entry.isSuccess).map (·.1)

theorem filter_run (steps : List Step) (g : Graph) :
    ((trace steps g).filter Entry.isSuccess).map (·.2) = (run steps g).1.filter (·.isOk) := by
  rw [← map_snd_trace, List.filter_map]
  rfl

/-- Without its failures, a script comes to the same. -/
theorem run_successful (steps : List Step) (g : Graph) :
    run (successful steps g) g = ((run steps g).1.filter (·.isOk), (run steps g).2) := by
  rw [← filter_run]
  exact run_of_sublist List.filter_sublist (by simp)

end Script

/-- **Failures leave no trace.** An operation that fails leaves every store of the graph as it was: the nodes,
    the edges in both directions, the names, the counters and the last id. And of a script, all failing steps
    may be left out, or just some of them: the other steps have the outcomes that they had, failures among them
    included, and the same graph is there in the end. -/
theorem Graph.failure_traceless (g : Graph) :
    (∀ b e, Operation b → (b.runOn g).1 = .error e → (b.runOn g).2.Untouched g) ∧
    (∀ steps, Script.run (Script.successful steps g) g =
      ((Script.run steps g).1.filter (·.isOk), (Script.run steps g).2)) ∧
    ∀ (steps : List Step) (kept : List Script.Entry), kept.Sublist (Script.trace steps g) →
      kept.filter Script.Entry.isSuccess = (Script.trace steps g).filter Script.Entry.isSuccess →
        Script.run (kept.map (·.1)) g = (kept.map (·.2), (Script.run steps g).2) :=
  ⟨fun _ _ hb h => untouched_iff.mpr (hb.runOn_of_error h), fun steps => Script.run_successful steps g,
    fun _ _ hsub hkeep => Script.run_of_sublist hsub hkeep⟩

/-- A name that is refused at the very end, when everything else is right, and the last id is still the first
    one. Then a script with three more failures, each of another kind, and what is left without them, or without
    one of them. -/
theorem Graph.failure_traceless_gate :
    ∃ (g : Graph) (b : Builder NodeId) (steps : List Step) (kept : List Script.Entry),
      (b.runOn g).1 = .error (.duplicateNodeName "x" "gate") ∧ (b.runOn g).2.Untouched g ∧
      (b.runOn g).2.lastId = 1 ∧
      steps.length = 5 ∧ (Script.successful steps g).length = 2 ∧
      Script.run (Script.successful steps g) g =
        ((Script.run steps g).1.filter (·.isOk), (Script.run steps g).2) ∧
      kept.length = 4 ∧ Script.run (kept.map (·.1)) g = (kept.map (·.2), (Script.run steps g).2) ∧
      (Script.run steps g).2.size = 3 := by
  let g : Graph := (Script.run [.parameter (.fixed [2, 3]) (some "x")] (empty "gate")).2
  let b : Builder NodeId := addParameter (.fixed [4]) (some "x")
  let steps : List Step := [
    .parameter (.fixed [4]) (some "w"),
    .arith .add ⟨1⟩ ⟨2⟩ none,
    .clamp ⟨1⟩ 0 (.ofBits .single 0x7f800000) none,
    .arith .multiply ⟨1⟩ ⟨7⟩ none,
    .arith .multiply ⟨1⟩ ⟨1⟩ none]
  let kept : List Script.Entry := (Script.trace steps g).eraseIdx 2
  obtain ⟨hfailed, hsuccessful, hkept⟩ := failure_traceless g
  have herror : (b.runOn g).1 = .error (.duplicateNodeName "x" "gate") := rfl
  have huntouched : (b.runOn g).2.Untouched g := hfailed b _ (.addParameter _ _) herror
  have hsame : kept.filter Script.Entry.isSuccess = (Script.trace steps g).filter Script.Entry.isSuccess := rfl
  exact ⟨g, b, steps, kept, herror, huntouched, huntouched.lastId, rfl, by decide +kernel,
    hsuccessful steps, by decide +kernel, hkept steps kept (List.eraseIdx_sublist _ 2) hsame,
    by decide +kernel⟩

end GateGraph
