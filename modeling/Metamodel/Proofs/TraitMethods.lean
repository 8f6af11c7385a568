import Metamodel.Proofs.GetterNames
import Metamodel.Proofs.Getters
import Metamodel.Proofs.InheritanceCycles
import Metamodel.Proofs.ResolvedGeneration

/-!
The methods that a trait declares.

A trait declares a getter for each feature of its class, and a method for each operation whose name
is not taken by then. So the methods for operations have names of their own. The getters have not:
nothing looks for the name of a getter among those before it, and two features of a class may be
read by one name.

Results:
1. `nodup_getterNames_iff`: when the getters of features have different names.
2. `names_of_methods`: which operations get a method.
3. `traitItem_methodNames`: the methods of a trait, and when their names are different.
4. `traitItem_open`: a class with a boolean and with the question that it asks.
-/

namespace Metamodel

/-- A name that is not taken is the first of its kind, and taken from then on. -/
theorem eraseDups_filter_cons {α : Type} [DecidableEq α] {taken names : List α} {name : α}
    (free : name ∉ taken) :
    ((name :: names).filter fun other => other ∉ taken).eraseDups =
      name :: (names.filter fun other => other ∉ name :: taken).eraseDups := by
  rw [List.filter_cons_of_pos (by simpa using free), List.eraseDups_cons, List.filter_filter]
  simp only [List.mem_cons, not_or, Bool.decide_and, decide_not]
  rfl

/-- The methods that a trait declares, by name. -/
def Generated.Trait.methodNames (t : Generated.Trait) : List String :=
  t.getters.map Generated.Getter.name ++ t.methods.map Generated.Method.name

namespace Scope

open Generated Model

variable {s : Scope} {cls f g : ElementId}

/-! ## Getters -/

/-- The name of the getter for a feature. -/
def getterName (s : Scope) (feature : ElementId) : Except Error String :=
  Getter.name <$> s.getter feature

/-- Two features are read by one name. -/
def ReadAlike (s : Scope) (f g : ElementId) : Prop :=
  ∃ t u, s.fieldType f = .ok t ∧ s.fieldType g = .ok u ∧
    s.settings.naming.ReadAlike (s.model.label f) t.designation.isBoolean (s.model.label g)
      u.designation.isBoolean

theorem getterName_ok_iff {name : String} :
    s.getterName f = .ok name ↔ ∃ t, s.fieldType f = .ok t ∧
      s.settings.naming.getter (s.model.label f) t.designation.isBoolean = name := by
  unfold getterName getter
  cases s.fieldType f with
  | error error => simp [Functor.map, Except.map, bind, Except.bind]
  | ok t => simp [Functor.map, Except.map, bind, Except.bind, pure, Except.pure]

theorem getterName_eq_iff {name : String} (known : s.getterName f = .ok name) {name' : String}
    (known' : s.getterName g = .ok name') :
    s.getterName f = s.getterName g ↔ s.ReadAlike f g := by
  obtain ⟨t, isType, rfl⟩ := getterName_ok_iff.mp known
  obtain ⟨u, isType', rfl⟩ := getterName_ok_iff.mp known'
  rw [known, known', Except.ok.injEq, NamingSettings.getter_eq_iff]
  constructor
  · intro alike
    exact ⟨t, u, isType, isType', alike⟩
  · rintro ⟨t', u', same, same', alike⟩
    cases isType.symm.trans same
    cases isType'.symm.trans same'
    exact alike

/-- The getters of some features have different names exactly if no two of the features are read
alike. -/
theorem nodup_getterNames_iff {features : List ElementId} {names : List String}
    (known : features.mapM s.getterName = .ok names) :
    names.Nodup ↔ features.Pairwise fun f g => ¬ s.ReadAlike f g := by
  have results := mapM_ok_iff.mp known
  have each {f : ElementId} (member : f ∈ features) : ∃ name, s.getterName f = .ok name := by
    have there : s.getterName f ∈ names.map Except.ok := results ▸ List.mem_map_of_mem member
    obtain ⟨name, -, same⟩ := List.mem_map.mp there
    exact ⟨name, same.symm⟩
  have wrap : Function.Injective (Except.ok : String → Except Error String) :=
    fun _ _ => Except.ok.inj
  rw [← List.nodup_map_iff wrap, ← results, List.Nodup, List.pairwise_map]
  refine List.Pairwise.iff_of_mem fun {f g} memberF memberG => not_congr ?_
  obtain ⟨name, knownF⟩ := each memberF
  obtain ⟨name', knownG⟩ := each memberG
  exact getterName_eq_iff knownF knownG

/-! ## Methods for operations -/

/-- The name that a method for an operation gets, if it is not taken. -/
def operationName (s : Scope) (operation : ElementId) : Except Error String :=
  s.methodName operation <$> s.designation operation

/-- Of the operations whose names are not taken, the first one of each name gets a method. -/
theorem names_of_methods {taken : List String} {operations : List ElementId}
    {methods : List Method} (done : s.methods cls taken operations = .ok methods) :
    ∃ names, operations.mapM s.operationName = .ok names ∧
      methods.map Method.name = (names.filter fun name => name ∉ taken).eraseDups := by
  -- A method takes its name, so the names that are taken grow on the way.
  induction operations generalizing taken methods with
  | nil =>
    cases done
    exact ⟨[], rfl, rfl⟩
  | cons operation rest ih =>
    unfold Scope.methods at done
    obtain ⟨returns, designated, done⟩ := bind_ok_iff.mp done
    have named : s.operationName operation = .ok (s.methodName operation returns) := by
      rw [operationName, designated]
      rfl
    simp only [List.contains_iff_mem] at done
    split at done
    · next isTaken =>
      obtain ⟨names, known, rest⟩ := ih done
      refine ⟨s.methodName operation returns :: names, ?_, ?_⟩
      · rw [List.mapM_cons, named, known]
        rfl
      · rw [rest, List.filter_cons_of_neg (by simpa using isTaken)]
    · next free =>
      obtain ⟨method, made, done⟩ := bind_ok_iff.mp done
      obtain ⟨later, others, done⟩ := bind_ok_iff.mp done
      cases done
      obtain ⟨names, known, rest⟩ := ih others
      obtain ⟨parameters, -, made⟩ := bind_ok_iff.mp made
      cases made
      refine ⟨s.methodName operation returns :: names, ?_, ?_⟩
      · rw [List.mapM_cons, named, known]
        rfl
      · rw [List.map_cons, rest, eraseDups_filter_cons free]

/-! ## Traits -/

/-- When the links of a class and of what it holds are resolved, its trait is written. It declares
the getters of the features of the class, and then a method for the first operation of each name
that no getter has. So the methods for operations have names that nothing else in the trait has, and
all names are different exactly if no two features of the class are read alike. -/
theorem traitItem_methodNames (s : Scope) {cls : ElementId} (linked : s.model.Linked cls) :
    ∃ t getters wanted, s.traitItem cls = .ok t ∧
      (s.model.ownFeatures cls).mapM s.getterName = .ok getters ∧
      (s.model.members .operations cls).mapM s.operationName = .ok wanted ∧
      t.methodNames = getters ++ (wanted.filter fun name => name ∉ getters).eraseDups ∧
      (t.methods.map Method.name).Nodup ∧
      (∀ method ∈ t.methods, ∀ getter ∈ t.getters, method.name ≠ getter.name) ∧
      (t.methodNames.Nodup ↔
        (s.model.ownFeatures cls).Pairwise fun f g => ¬ s.ReadAlike f g) := by
  obtain ⟨t, done⟩ := s.succeeds_traitItem linked
  obtain ⟨getters, methods, read, made, rfl⟩ := traitItem_ok done
  have getterNames := mapM_map_ok Getter.name read
  obtain ⟨wanted, operationNames, names⟩ := names_of_methods made
  have once : (methods.map Method.name).Nodup := names ▸ nodup_eraseDups _
  have apart : ∀ method ∈ methods, ∀ getter ∈ getters, method.name ≠ getter.name := by
    intro method member getter member' same
    have there : method.name ∈ methods.map Method.name := List.mem_map_of_mem member
    rw [names, List.mem_eraseDups, List.mem_filter, decide_eq_true_iff] at there
    exact there.2 (same ▸ List.mem_map_of_mem member')
  refine ⟨_, getters.map Getter.name, wanted, done, getterNames, operationNames, ?_, once, apart, ?_⟩
  · show getters.map Getter.name ++ methods.map Method.name = _
    rw [names]
  · rw [← nodup_getterNames_iff getterNames]
    show (getters.map Getter.name ++ methods.map Method.name).Nodup ↔ _
    rw [List.nodup_append]
    constructor
    · exact fun all => all.1
    · intro different
      refine ⟨different, once, fun name read name' made same => ?_⟩
      obtain ⟨getter, member, rfl⟩ := List.mem_map.mp read
      obtain ⟨method, member', rfl⟩ := List.mem_map.mp made
      exact apart method member' getter member same.symm

end Scope

namespace Model

/-- A document with a class that has a boolean and the question that it asks, and with a class in an
inner package whose operations are named like its feature and like each other. -/
def homeDocument : List Event :=
  [.opening "EPackage" (.ofList [("name", "home")]),
    .opening "eDataTypes" (.ofList [("name", "EBoolean")]), .closing,
    .opening "eClasses" (.ofList [("name", "Door")]),
    .opening "eAttributes" (.ofList [("name", "open"), ("eType", "#//EBoolean")]), .closing,
    .opening "eAttributes" (.ofList [("name", "isOpen"), ("eType", "#//EBoolean")]), .closing,
    .closing,
    .opening "eSubpackages" (.ofList [("name", "lights")]),
    .opening "eDataTypes" (.ofList [("name", "EBoolean")]), .closing,
    .opening "eClasses" (.ofList [("name", "Lamp")]),
    .opening "eAttributes" (.ofList [("name", "lit"), ("eType", "#//EBoolean")]), .closing,
    .opening "eOperations" (.ofList [("name", "isLit"), ("eType", "#//EBoolean")]), .closing,
    .opening "eOperations" (.ofList [("name", "getBulb")]), .closing,
    .opening "eOperations" (.ofList [("name", "bulb")]), .closing,
    .closing, .closing, .closing]

/-- The model with the elements of `homeDocument`. -/
def furnishing : Model := (({} : Model).build "xsi:type" homeDocument none).toOption.elim {} Prod.fst

/-- The model with the elements of `homeDocument`, resolved. -/
def furnished : Model := (furnishing.resolve ⟨0⟩ []).toOption.elim {} Prod.fst

theorem loaded_furnished : furnished.Loaded := by
  have built : ({} : Model).build "xsi:type" homeDocument none = .ok (furnishing, ⟨0⟩) := rfl
  exact elim_toOption .empty fun _ _ done => .resolved (.document .empty built) done

end Model

namespace Scope

open Generated Model

/-- The outer package. -/
def homeScope : Scope := ⟨furnished, {}, some ⟨0⟩⟩

-- One evaluation for all that follows: the kernel builds and resolves the model only once.
theorem evaluated_furnished :
    (∀ e ∈ furnished.elements.toList, ∀ field ∈ LinkField.all, ∀ link ∈ e.body.links field,
      link.isResolved) ∧
    furnished.isClass ⟨2⟩ ∧
    (homeScope.traitItem ⟨2⟩).toOption.map Trait.methodNames = some ["is_open", "is_open"] ∧
    (homeScope.model.ownFeatures ⟨7⟩).mapM homeScope.getterName = .ok ["is_lit"] ∧
    (homeScope.model.members .operations ⟨7⟩).mapM homeScope.operationName =
      .ok ["is_lit", "bulb", "bulb"] := by
  decide +kernel

theorem resolved_furnished : ∀ id field, ∀ link ∈ furnished.links field id, link.isResolved :=
  isResolved_of_elements evaluated_furnished.1

/-- The getter keeps its name, and of the operations only one gets a method. -/
theorem traitItem_methodNames_lamp :
    ∃ t, homeScope.traitItem ⟨7⟩ = .ok t ∧ t.methodNames = ["is_lit", "bulb"] ∧
      t.methodNames.Nodup := by
  have linked : homeScope.model.Linked ⟨7⟩ := fun x _ => resolved_furnished x
  obtain ⟨t, getters, wanted, written, read, named, names, -, -, -⟩ :=
    traitItem_methodNames homeScope linked
  obtain ⟨-, -, -, isGetters, isWanted⟩ := evaluated_furnished
  cases isGetters.symm.trans read
  cases isWanted.symm.trans named
  have known : t.methodNames = ["is_lit", "bulb"] := names.trans (by decide)
  exact ⟨t, written, known, known ▸ by decide⟩

/-- The trait declares one method for the boolean and for the question, twice. -/
theorem traitItem_open :
    furnished.Loaded ∧ (∀ id field, ∀ link ∈ furnished.links field id, link.isResolved) ∧
      furnished.isClass ⟨2⟩ ∧ ∃ t, homeScope.traitItem ⟨2⟩ = .ok t ∧
        t.methodNames = ["is_open", "is_open"] ∧ ¬ t.methodNames.Nodup := by
  obtain ⟨-, isClass, names, -⟩ := evaluated_furnished
  obtain ⟨t, written, names⟩ := Option.map_eq_some_iff.mp names
  exact ⟨loaded_furnished, resolved_furnished, isClass, t, toOption_eq_some_iff.mp written, names,
    names ▸ by decide⟩

end Scope

end Metamodel
