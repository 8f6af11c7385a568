import Metamodel.Proofs.DeepTraversal

/-!
What a failing step leaves of a traversal.

A visitor that logs what it watches and fails at some of these steps takes the same steps as one
that never fails, up to the first at which it fails. Nothing is logged after that one. It is the
same for a visitor that stays at the element where it starts.

Results:
1. `WellFormed.walk_faulty`: the steps that are recorded, with members and without.
2. `walk_interrupted`: the log and the error of an interrupted traversal.
-/

namespace Metamodel

namespace Model

/-- The watched steps of a traversal, or of a visit to the element alone. -/
def watchedSteps (m : Model) (watched : Metaclass → Bool) (descend : Bool) (id : ElementId) :
    List (Metaclass × ElementId) :=
  (if descend then m.preorder id else [id]).flatMap fun x =>
    ((m.lineage x).filter watched).map (·, x)

section Log

variable {m : Model} {ε : Type} {watched : Metaclass → Bool}
  {fault : Metaclass → ElementId → Option ε}

/-- The first step that fails is logged, and no other after it. -/
theorem foldlM_record_error {before after : List (Metaclass × ElementId)}
    {step : Metaclass × ElementId} {error : ε}
    (sound : ∀ step ∈ before, fault step.1 step.2 = none) (fails : fault step.1 step.2 = some error)
    (log : Array (Metaclass × ElementId)) :
    (before ++ step :: after).foldlM (record fault) log =
      .error (error, log ++ (before ++ [step]).toArray) := by
  have last : record fault (log ++ before.toArray) step =
      .error (error, (log ++ before.toArray).push step) := by simp [record, fails]
  rw [List.foldlM_append, foldlM_record sound, ok_bind, List.foldlM_cons, last]
  simp [bind, Except.bind]

/-- Without members, a visitor only enters and leaves the metaclasses of the element. -/
theorem walkLineage_faulty
    (visit : Array (Metaclass × ElementId) → ElementId →
      Except (ε × Array (Metaclass × ElementId)) (Array (Metaclass × ElementId)))
    (id : ElementId) (lineage : List Metaclass) (log : Array (Metaclass × ElementId)) :
    m.walkLineage (faulty watched fault false) visit id lineage log =
      (lineage.map (Visit.entering · id)).foldlM (faulty watched fault false).take log := by
  induction lineage generalizing log with
  | nil => rfl
  | cons c general ih =>
    rw [walkLineage, List.map_cons, List.foldlM_cons]
    cases entered : (faulty watched fault false).enter c id log with
    | error failure => simp [Visitor.take, entered, bind, Except.bind, Except.map]
    | ok result =>
      obtain ⟨next, goOn⟩ := result
      cases faulty_goesOn entered
      have first : (faulty watched fault false).take log (.entering c id) = .ok next := by
        simp [Visitor.take, entered, Except.map]
      rw [first, ok_bind, ok_bind, ← ih]
      simp only [if_true]
      cases m.walkLineage (faulty watched fault false) visit id general next <;> rfl

/-- A visitor records the watched steps one after the other. -/
theorem WellFormed.walk_faulty (wf : m.WellFormed) {id : ElementId} {e : Element}
    (found : m.get? id = some e) (descend : Bool) (log : Array (Metaclass × ElementId)) :
    m.walk (faulty watched fault descend) id log =
      (m.watchedSteps watched descend id).foldlM (record fault) log := by
  cases descend with
  | true =>
    have steps : (m.entries id).filter (watched ·.1) = m.watchedSteps watched true id := by
      rw [wf.entries_eq found, List.filter_flatMap]
      simp only [List.filter_map]
      rfl
    rw [walk_eq_foldlM steady_faulty, foldlM_take_faulty, ← steps]
    rfl
  | false =>
    have steps : (((m.lineage id).map (Visit.entering · id)).filterMap Visit.step?).filter
        (watched ·.1) = m.watchedSteps watched false id := by
      simp [watchedSteps, List.filterMap_map, Function.comp_def, Visit.step?, List.filter_map]
    obtain ⟨depth, size⟩ := Nat.exists_eq_succ_of_ne_zero (Nat.ne_zero_of_lt (lt_size_of_get? found))
    rw [walk, size, walkWithin, walkLineage_faulty, foldlM_take_faulty, steps]

end Log

/-- A traversal that never fails logs the watched steps, whether it visits members or not. One that
fails at some steps ends with the error of the first of them that it comes to, and its log is that
of the other up to this step, which is the last one; if it comes to none, the two are the same. -/
theorem walk_interrupted {m : Model} {ε : Type} (loaded : m.Loaded) {id : ElementId} {e : Element}
    (found : m.get? id = some e) (watched : Metaclass → Bool)
    (fault : Metaclass → ElementId → Option ε) (descend : Bool) :
    m.walk (.logging (ε := ε) watched (fun _ => false) (fun _ _ => none) descend) id #[] =
        .ok (m.watchedSteps watched descend id).toArray ∧
      ((∀ step ∈ m.watchedSteps watched descend id, fault step.1 step.2 = none) →
        m.walk (.logging watched (fun _ => false) fault descend) id #[] =
          .ok (m.watchedSteps watched descend id).toArray) ∧
      ∀ before c x after error, m.watchedSteps watched descend id = before ++ (c, x) :: after →
        (∀ step ∈ before, fault step.1 step.2 = none) → fault c x = some error →
        m.walk (.logging watched (fun _ => false) fault descend) id #[] =
          .error (error, (before ++ [(c, x)]).toArray) := by
  have wf := loaded.wellFormed
  have run (fault : Metaclass → ElementId → Option ε) :
      m.walk (.logging watched (fun _ => false) fault descend) id #[] =
        (m.watchedSteps watched descend id).foldlM (record fault) #[] :=
    wf.walk_faulty found descend #[]
  refine ⟨?free, fun sound => ?same, fun before c x after error split sound fails => ?interrupted⟩
  case free => rw [run, foldlM_record fun _ _ => rfl, Array.empty_append]
  case same => rw [run, foldlM_record sound, Array.empty_append]
  case interrupted => rw [run, split, foldlM_record_error sound fails, Array.empty_append]

/-- The annotation of the inner package fails as a model element: the elements before it have been
logged, and the data type after it has not. -/
theorem walk_interrupted_shadowing :
    shadowing.Loaded ∧ (∃ e, shadowing.get? ⟨0⟩ = some e) ∧
      shadowing.walk (.logging (· = .eModelElement) (fun _ => false)
        (fun _ id => if id = ⟨4⟩ then some "stop" else none) true) ⟨0⟩ #[] =
        .error ("stop", #[(.eModelElement, ⟨0⟩), (.eModelElement, ⟨1⟩), (.eModelElement, ⟨2⟩),
          (.eModelElement, ⟨4⟩)]) := by
  have there : (shadowing.get? ⟨0⟩).isSome := by decide +kernel
  obtain ⟨e, found⟩ := Option.isSome_iff_exists.mp there
  have steps : shadowing.watchedSteps (· = .eModelElement) true ⟨0⟩ =
      [(.eModelElement, ⟨0⟩), (.eModelElement, ⟨1⟩), (.eModelElement, ⟨2⟩)] ++
        (.eModelElement, ⟨4⟩) :: [(.eModelElement, ⟨3⟩)] := by
    decide +kernel
  refine ⟨loaded_shadowing, ⟨e, found⟩, ?_⟩
  exact (walk_interrupted loaded_shadowing found _ _ true).2.2 _ _ _ _ "stop" steps (by decide) rfl

end Model
end Metamodel
