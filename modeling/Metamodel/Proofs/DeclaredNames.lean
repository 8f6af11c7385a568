import Metamodel.Proofs.ClassifierNames
import Metamodel.Proofs.Generation
import Metamodel.Proofs.Getters
import Metamodel.Proofs.Resolution

/-!
The names that a generated module declares.

The module of a package declares an enum for each of its enums, a trait for each of its classes, a
struct for each concrete one and a module for each subpackage. Enums and traits go by the names of
the model, structs by that name and a suffix, modules by the name in snake case. Within each group
but the last, names are different because those of the model are. Across groups nothing keeps them
apart, and two subpackages may become one identifier.

Results:
1. `names_of_module_ok`: the names in the module of a package, read off the model.
2. `SlotsSound.nodup_declaredNames_iff`: they are different exactly if no two of the package clash.
3. `generate_names`: the modules that generation writes, and in which of them the names are
   different.
4. `names_twinned`: an enum whose name is that of a class with the suffix.
-/

namespace Metamodel

/-! ## Results of several computations -/

theorem map_ok_iff {ε α β : Type} {x : Except ε α} {f : α → β} {b : β} :
    f <$> x = .ok b ↔ ∃ a, x = .ok a ∧ f a = b := by
  cases x <;> simp [Functor.map, Except.map]

theorem mapM_congr {ε α β : Type} {f g : α → Except ε β} {l : List α}
    (same : ∀ a ∈ l, f a = g a) : l.mapM f = l.mapM g := by
  induction l with
  | nil => rfl
  | cons a l ih =>
    rw [List.mapM_cons, List.mapM_cons, same a List.mem_cons_self,
      ih fun x member => same x (List.mem_cons_of_mem a member)]

/-- What can be read of each result can be read of what they are computed from. -/
theorem map_of_mapM_ok {ε α β γ : Type} {f : α → Except ε β} {l : List α} {bs : List β}
    {read : β → γ} {known : α → γ} (each : ∀ a ∈ l, ∀ b, f a = .ok b → read b = known a)
    (done : l.mapM f = .ok bs) : bs.map read = l.map known := by
  induction l generalizing bs with
  | nil =>
    cases done
    rfl
  | cons a l ih =>
    rw [List.mapM_cons] at done
    obtain ⟨b, first, done⟩ := bind_ok_iff.mp done
    obtain ⟨rest, others, done⟩ := bind_ok_iff.mp done
    cases done
    rw [List.map_cons, List.map_cons, each a List.mem_cons_self b first,
      ih (fun x member => each x (List.mem_cons_of_mem a member)) others]

theorem map_flatten_of_mapM_ok {ε α β γ : Type} {f : α → Except ε (List β)} {l : List α}
    {bss : List (List β)} {read : β → γ} {known : α → List γ}
    (each : ∀ a ∈ l, ∀ bs, f a = .ok bs → bs.map read = known a) (done : l.mapM f = .ok bss) :
    bss.flatten.map read = l.flatMap known := by
  rw [List.map_flatten, map_of_mapM_ok each done, List.flatMap_def]

/-- The results are those of the elements, each of which has one. -/
theorem results_of_mapM_ok {ε α β : Type} {f : α → Except ε β} {l : List α} {bs : List β}
    (done : l.mapM f = .ok bs) :
    (∀ a ∈ l, ∃ b ∈ bs, f a = .ok b) ∧ ∀ b ∈ bs, ∃ a ∈ l, f a = .ok b := by
  have results := mapM_ok_iff.mp done
  constructor
  · intro a member
    have there : f a ∈ bs.map Except.ok := results ▸ List.mem_map_of_mem member
    obtain ⟨b, held, same⟩ := List.mem_map.mp there
    exact ⟨b, held, same.symm⟩
  · intro b held
    have there : Except.ok b ∈ l.map f := results ▸ List.mem_map_of_mem held
    exact List.mem_map.mp there

/-! ## Generated modules -/

namespace Generated

def Item.name : Item → String
  | .enum e => e.name
  | .trait t => t.name
  | .struct s => s.name

/-- The names that a module declares: those of its items and of the modules in it. -/
def Module.names (g : Module) : List String :=
  g.items.map Item.name ++ (g.nested.filterMap id).map Module.name

/-- The modules in a module, itself included. -/
inductive Module.Holds (top : Module) : Module → Prop
  | self : Holds top top
  | nested {outer inner : Module} : Holds top outer → some inner ∈ outer.nested → Holds top inner

end Generated

open Generated

namespace Model

variable {m : Model} {p : ElementId} {e : Element} {settings : GenerationSettings}

/-! ## Names of one package -/

/-- The enums of a package. -/
def enums (m : Model) (p : ElementId) : List ElementId :=
  (m.members .dataTypes p).filter fun d => m.kind? d = some .eEnum

/-- The classes of a package that have structs. -/
def concreteClasses (m : Model) (p : ElementId) : List ElementId :=
  (m.members .classes p).filter (Scope.isConcrete m)

/-- The names that the module of a package declares. -/
def declaredNames (m : Model) (naming : NamingSettings) (p : ElementId) : List String :=
  (m.enums p ++ m.members .classes p).map m.label ++
    ((m.concreteClasses p).map fun c => naming.struct (m.label c)) ++
    ((m.members .subpackages p).map fun q => naming.identifier (m.label q))

/-- Two declarations for a package have the same name. -/
inductive Clash (m : Model) (naming : NamingSettings) (p : ElementId) : Prop
  | enumTrait {e c : ElementId} :
      e ∈ m.enums p → c ∈ m.members .classes p → m.label e = m.label c → Clash m naming p
  | structType {c t : ElementId} :
      c ∈ m.concreteClasses p → t ∈ m.enums p ++ m.members .classes p →
      naming.struct (m.label c) = m.label t → Clash m naming p
  | modules {q r : ElementId} :
      q ∈ m.members .subpackages p → r ∈ m.members .subpackages p → q ≠ r →
      naming.identifier (m.label q) = naming.identifier (m.label r) → Clash m naming p
  | moduleType {q t : ElementId} :
      q ∈ m.members .subpackages p → t ∈ m.enums p ++ m.members .classes p →
      naming.identifier (m.label q) = m.label t → Clash m naming p
  | moduleStruct {q c : ElementId} :
      q ∈ m.members .subpackages p → c ∈ m.concreteClasses p →
      naming.identifier (m.label q) = naming.struct (m.label c) → Clash m naming p

theorem struct_injective (naming : NamingSettings) : Function.Injective naming.struct :=
  fun _ _ same => String.append_left_inj _ |>.mp same

/-- The names of the module of a package are different exactly if no two of them clash. -/
theorem SlotsSound.nodup_declaredNames_iff (sound : m.SlotsSound) (naming : NamingSettings)
    (p : ElementId) : (m.declaredNames naming p).Nodup ↔ ¬ m.Clash naming p := by
  have dataTypes : ((m.members .dataTypes p).map m.label).Nodup := sound.nodup_labels rfl p
  have classes : ((m.members .classes p).map m.label).Nodup := sound.nodup_labels rfl p
  have enums : ((m.enums p).map m.label).Nodup := dataTypes.sublist (List.filter_sublist.map _)
  have structs : ((m.concreteClasses p).map fun c => naming.struct (m.label c)).Nodup := by
    have labels : ((m.concreteClasses p).map m.label).Nodup :=
      classes.sublist (List.filter_sublist.map _)
    have different := labels.map (struct_injective naming)
    rw [List.map_map] at different
    exact different
  -- Enums, traits and structs are different among themselves; modules, and names of two groups, may
  -- clash.
  rw [declaredNames, List.nodup_append, List.nodup_append, List.map_append, List.nodup_append]
  simp only [List.mem_map, List.mem_append]
  constructor
  · rintro ⟨⟨⟨-, -, apart⟩, -, structsApart⟩, modules, modulesApart⟩ clash
    cases clash with
    | enumTrait isEnum isClass same => exact apart _ ⟨_, isEnum, rfl⟩ _ ⟨_, isClass, rfl⟩ same
    | structType concrete type same =>
      refine structsApart _ ?_ _ ⟨_, concrete, rfl⟩ same.symm
      exact (List.mem_append.mp type).imp (fun h => ⟨_, h, rfl⟩) fun h => ⟨_, h, rfl⟩
    | modules first second ne same =>
      exact ne (List.inj_on_of_nodup_map modules first second same)
    | moduleType package type same =>
      refine modulesApart _ (.inl ?_) _ ⟨_, package, rfl⟩ same.symm
      exact (List.mem_append.mp type).imp (fun h => ⟨_, h, rfl⟩) fun h => ⟨_, h, rfl⟩
    | moduleStruct package concrete same =>
      exact modulesApart _ (.inr ⟨_, concrete, rfl⟩) _ ⟨_, package, rfl⟩ same.symm
  · intro clear
    refine ⟨⟨⟨enums, classes, ?_⟩, structs, ?_⟩, ?_, ?_⟩
    · rintro _ ⟨e, isEnum, rfl⟩ _ ⟨c, isClass, rfl⟩ same
      exact clear (.enumTrait isEnum isClass same)
    · rintro _ type _ ⟨c, concrete, rfl⟩ same
      rcases type with ⟨t, type, rfl⟩ | ⟨t, type, rfl⟩
      · exact clear (.structType concrete (List.mem_append_left _ type) same.symm)
      · exact clear (.structType concrete (List.mem_append_right _ type) same.symm)
    · refine (List.nodup_map_iff_inj_on (sound.nodup .subpackages p)).mpr ?_
      intro q first r second same
      by_contra ne
      exact clear (.modules first second ne same)
    · rintro _ declared _ ⟨q, package, rfl⟩ same
      rcases declared with (⟨t, type, rfl⟩ | ⟨t, type, rfl⟩) | ⟨c, concrete, rfl⟩
      · exact clear (.moduleType package (List.mem_append_left _ type) same.symm)
      · exact clear (.moduleType package (List.mem_append_right _ type) same.symm)
      · exact clear (.moduleStruct package concrete same.symm)

end Model

/-! ## Names of the items -/

theorem flatMap_if_singleton {α β : Type} (p : α → Bool) (f : α → β) (l : List α) :
    l.flatMap (fun a => if p a then [f a] else []) = (l.filter p).map f := by
  induction l with
  | nil => rfl
  | cons a l ih => cases kept : p a <;> simp [kept, ih]

namespace Model

variable {m : Model} {p c : ElementId}

theorem SlotsSound.kind?_class (sound : m.SlotsSound) (held : c ∈ m.members .classes p) :
    m.kind? c = some .eClass := by
  obtain ⟨k, known, isA⟩ := Option.any_eq_true _ _ |>.mp (sound.fits held).2
  rw [known]
  revert isA
  cases k <;> decide

theorem SlotsSound.kind?_dataType (sound : m.SlotsSound) (held : c ∈ m.members .dataTypes p) :
    m.kind? c = some .eDataType ∨ m.kind? c = some .eEnum := by
  obtain ⟨k, known, isA⟩ := Option.any_eq_true _ _ |>.mp (sound.fits held).2
  rw [known]
  revert isA
  cases k <;> decide

end Model

namespace Scope

variable {s : Scope} {p c : ElementId} {items : List Item}

/-- The names of what a classifier calls for in the interface. -/
def interfaceNames (s : Scope) (c : ElementId) : List String :=
  if s.model.kind? c = some .eEnum ∨ s.model.kind? c = some .eClass then [s.model.label c] else []

/-- The names of what a class calls for in the implementation. -/
def structNames (s : Scope) (c : ElementId) : List String :=
  if isConcrete s.model c then [s.settings.naming.struct (s.model.label c)] else []

/-- The enum or the trait of a classifier goes by its name. -/
theorem names_of_interfaceItemsWithin {depth : Nat} (other : s.model.isPackage c = false)
    (done : s.interfaceItemsWithin (depth + 1) c = .ok items) :
    items.map Item.name = s.interfaceNames c := by
  unfold interfaceItemsWithin at done
  unfold interfaceNames
  split at done
  · next isEnum =>
    cases done
    rw [if_pos (.inl isEnum)]
    rfl
  · next isClass =>
    obtain ⟨t, made, done⟩ := bind_ok_iff.mp done
    cases done
    rw [if_pos (.inr isClass), List.map_singleton, Item.name, name_of_traitItem made]
  · next isPackage => simp [Model.isPackage, isPackage] at other
  · next notEnum notClass _ =>
    cases done
    rw [if_neg (not_or.mpr ⟨notEnum, notClass⟩)]
    rfl

/-- The struct of a concrete class goes by its name with the suffix. -/
theorem names_of_structItemsWithin {depth : Nat} (isClass : s.model.kind? c = some .eClass)
    (done : s.structItemsWithin (depth + 1) c = .ok items) :
    items.map Item.name = s.structNames c := by
  unfold structItemsWithin at done
  unfold structNames
  simp only [isClass] at done
  split at done
  · next concrete =>
    obtain ⟨struct, made, done⟩ := bind_ok_iff.mp done
    cases done
    rw [if_pos concrete, List.map_singleton, Item.name, name_of_structItem made]
  · next abstract =>
    cases done
    rw [if_neg abstract]
    rfl

theorem interfaceItems_eq (wf : s.model.WellFormed) (isPackage : s.model.isPackage p) :
    s.interfaceItems p = List.flatten <$>
      (s.model.members .dataTypes p ++ s.model.sortedClasses p).mapM
        (s.interfaceItemsWithin s.model.size) := by
  obtain ⟨e, found⟩ := Model.get?_of_isPackage isPackage
  have known : s.model.kind? p = some .ePackage := of_decide_eq_true isPackage
  have deeper : s.interfaceItems p = s.interfaceItemsWithin (s.model.size + 1) p := by
    refine wf.eq_succ (f := s.interfaceItemsWithin) (fun depth depth' id same => ?_) found
    have members : ∀ c ∈ s.model.members .dataTypes id ++ s.model.sortedClasses id,
        s.interfaceItemsWithin depth c = s.interfaceItemsWithin depth' c := by
      intro c member
      refine same c (Model.mem_allMembers.mpr ?_)
      rcases List.mem_append.mp member with held | sorted
      · exact ⟨_, held⟩
      · exact ⟨_, Model.mem_sortedClasses.mp sorted⟩
    simp only [interfaceItemsWithin, mapM_congr members]
  rw [deeper]
  unfold interfaceItemsWithin
  simp only [known]
  rfl

theorem structItems_eq (wf : s.model.WellFormed) (isPackage : s.model.isPackage p) :
    s.structItems p = List.flatten <$>
      (s.model.sortedClasses p).mapM (s.structItemsWithin s.model.size) := by
  obtain ⟨e, found⟩ := Model.get?_of_isPackage isPackage
  have known : s.model.kind? p = some .ePackage := of_decide_eq_true isPackage
  have deeper : s.structItems p = s.structItemsWithin (s.model.size + 1) p := by
    refine wf.eq_succ (f := s.structItemsWithin) (fun depth depth' id same => ?_) found
    have members : ∀ c ∈ s.model.sortedClasses id,
        s.structItemsWithin depth c = s.structItemsWithin depth' c := fun c sorted =>
      same c (Model.mem_allMembers.mpr ⟨_, Model.mem_sortedClasses.mp sorted⟩)
    simp only [structItemsWithin, mapM_congr members]
  rw [deeper]
  unfold structItemsWithin
  simp only [known]
  rfl

/-- The enums and the traits of a package, by name. -/
theorem names_of_interfaceItems (wf : s.model.WellFormed) (isPackage : s.model.isPackage p)
    (done : s.interfaceItems p = .ok items) :
    items.map Item.name =
      (s.model.enums p ++ s.model.sortedClasses p).map s.model.label := by
  obtain ⟨e, found⟩ := Model.get?_of_isPackage isPackage
  obtain ⟨size, sized⟩ := Nat.exists_eq_add_of_lt (Model.lt_size_of_get? found)
  rw [interfaceItems_eq wf isPackage, sized, map_ok_iff] at done
  obtain ⟨each, done, rfl⟩ := done
  have classKind {c : ElementId} (sorted : c ∈ s.model.sortedClasses p) :
      s.model.kind? c = some .eClass :=
    wf.kind?_class (Model.mem_sortedClasses.mp sorted)
  have other : ∀ c ∈ s.model.members .dataTypes p ++ s.model.sortedClasses p,
      s.model.isPackage c = false := by
    intro c member
    rcases List.mem_append.mp member with held | sorted
    · rcases wf.kind?_dataType held with known | known <;> simp [Model.isPackage, known]
    · simp [Model.isPackage, classKind sorted]
  have enums : (s.model.members .dataTypes p).flatMap s.interfaceNames =
      (s.model.enums p).map s.model.label := by
    rw [Model.enums, ← flatMap_if_singleton]
    refine List.flatMap_congr fun c held => ?_
    unfold interfaceNames
    rcases wf.kind?_dataType held with known | known <;> simp [known]
  have classes : (s.model.sortedClasses p).flatMap s.interfaceNames =
      (s.model.sortedClasses p).map s.model.label := by
    rw [List.map_eq_flatMap]
    refine List.flatMap_congr fun c sorted => ?_
    simp [interfaceNames, classKind sorted]
  rw [map_flatten_of_mapM_ok (fun c member _ => names_of_interfaceItemsWithin (other c member)) done,
    List.flatMap_append, enums, classes, List.map_append]

/-- The structs of a package, by name. -/
theorem names_of_structItems (wf : s.model.WellFormed) (isPackage : s.model.isPackage p)
    (done : s.structItems p = .ok items) :
    items.map Item.name = ((s.model.sortedClasses p).filter (isConcrete s.model)).map fun c =>
      s.settings.naming.struct (s.model.label c) := by
  obtain ⟨e, found⟩ := Model.get?_of_isPackage isPackage
  obtain ⟨size, sized⟩ := Nat.exists_eq_add_of_lt (Model.lt_size_of_get? found)
  rw [structItems_eq wf isPackage, sized, map_ok_iff] at done
  obtain ⟨each, done, rfl⟩ := done
  have classKind : ∀ c ∈ s.model.sortedClasses p, s.model.kind? c = some .eClass :=
    fun c sorted => wf.kind?_class (Model.mem_sortedClasses.mp sorted)
  rw [map_flatten_of_mapM_ok
    (fun c sorted _ => names_of_structItemsWithin (classKind c sorted)) done]
  exact flatMap_if_singleton _ _ _

/-- The items of a package, by name, when both enums and traits and structs are written. -/
theorem names_of_items (wf : s.model.WellFormed) (isPackage : s.model.isPackage p)
    (interfaces : s.settings.emit.interfaces) (structs : s.settings.emit.implementations)
    (done : s.items p = .ok items) :
    (items.map Item.name).Perm
      ((s.model.enums p ++ s.model.members .classes p).map s.model.label ++
        (s.model.concreteClasses p).map fun c => s.settings.naming.struct (s.model.label c)) := by
  unfold Scope.items at done
  simp only [interfaces, structs, if_true] at done
  obtain ⟨first, doneFirst, done⟩ := bind_ok_iff.mp done
  obtain ⟨second, doneSecond, done⟩ := bind_ok_iff.mp done
  cases done
  have sorted : (s.model.sortedClasses p).Perm (s.model.members .classes p) :=
    Model.sortClasses_perm _
  rw [List.map_append, names_of_interfaceItems wf isPackage doneFirst,
    names_of_structItems wf isPackage doneSecond]
  exact ((sorted.append_left _).map _).append ((sorted.filter _).map _)

end Scope

/-! ## Modules -/

namespace Model

variable {m : Model} {p root : ElementId} {e : Element} {settings : GenerationSettings}
  {g top : Module}

/-- The module of a package has the modules of its subpackages in it. -/
theorem module_eq (wf : m.WellFormed) (found : m.get? p = some e) :
    m.module settings p = do
      let own ← Scope.ownModule ⟨m, settings, some p⟩ p
      let nested ← (m.members .subpackages p).mapM fun member =>
        if m.isPackage member then some <$> m.module settings member else pure none
      return { own with nested := nested } := by
  refine wf.eq_succ (f := m.moduleWithin settings) (fun depth depth' id same => ?_) found
  have members : ∀ c ∈ m.members .subpackages id,
      (if m.isPackage c then some <$> m.moduleWithin settings depth c else pure none) =
        if m.isPackage c then some <$> m.moduleWithin settings depth' c else pure none :=
    fun c held => by rw [same c (mem_allMembers.mpr ⟨_, held⟩)]
  simp only [moduleWithin, mapM_congr members]

/-- What the module of a package consists of. -/
theorem of_module_ok (wf : m.WellFormed) (isPackage : m.isPackage p)
    (done : m.module settings p = .ok g) :
    g.name = settings.naming.identifier (m.label p) ∧
      Scope.items ⟨m, settings, some p⟩ p = .ok g.items ∧
      (m.members .subpackages p).mapM (fun q => some <$> m.module settings q) = .ok g.nested := by
  obtain ⟨e, found⟩ := get?_of_isPackage isPackage
  rw [module_eq wf found] at done
  obtain ⟨own, written, done⟩ := bind_ok_iff.mp done
  obtain ⟨nested, inner, done⟩ := bind_ok_iff.mp done
  unfold Scope.ownModule at written
  obtain ⟨items, made, written⟩ := bind_ok_iff.mp written
  have packages : ∀ q ∈ m.members .subpackages p,
      (if m.isPackage q then some <$> m.module settings q else pure none) =
        some <$> m.module settings q :=
    fun q held => if_pos (wf.isPackage_of_mem_subpackages held)
  rw [mapM_congr packages] at inner
  simp only [pure, Except.pure, Except.ok.injEq] at written done
  subst written done
  refine ⟨?_, made, inner⟩
  -- The two sides only differ in projections; unfolding the names would take long.
  dsimp only

/-- The names in the module of a package. -/
theorem names_of_module_ok (wf : m.WellFormed) (isPackage : m.isPackage p)
    (interfaces : settings.emit.interfaces) (structs : settings.emit.implementations)
    (done : m.module settings p = .ok g) : g.names.Perm (m.declaredNames settings.naming p) := by
  obtain ⟨-, items, nested⟩ := of_module_ok wf isPackage done
  have modules : (g.nested.filterMap id).map Module.name =
      (m.members .subpackages p).map fun q => settings.naming.identifier (m.label q) := by
    have each : ∀ q ∈ m.members .subpackages p, ∀ inner, some <$> m.module settings q = .ok inner →
        inner.toList.map Module.name = [settings.naming.identifier (m.label q)] := by
      intro q held inner made
      obtain ⟨written, made', rfl⟩ := map_ok_iff.mp made
      rw [Option.toList_some, List.map_singleton,
        (of_module_ok wf (wf.isPackage_of_mem_subpackages held) made').1]
    have read := congrArg List.flatten (map_of_mapM_ok each nested)
    rw [List.filterMap_eq_flatMap_toList, List.map_flatMap, List.map_eq_flatMap]
    exact read
  rw [Module.names, modules]
  exact (Scope.names_of_items (s := ⟨m, settings, some p⟩) wf isPackage interfaces structs
    items).append_right _

/-- The module of a package holds the modules of all packages of its tree. -/
theorem exists_holds (wf : m.WellFormed) (done : m.module settings root = .ok top)
    (within : m.Within root p) (isPackage : m.isPackage p) :
    ∃ g, m.module settings p = .ok g ∧ top.Holds g := by
  induction within with
  | self => exact ⟨top, done, .self⟩
  | member _ held ih =>
    obtain ⟨held, isOuter⟩ := wf.nested_of_isPackage held isPackage
    obtain ⟨outer, made, holds⟩ := ih isOuter
    obtain ⟨-, -, nested⟩ := of_module_ok wf isOuter made
    obtain ⟨_, there, written⟩ := (results_of_mapM_ok nested).1 _ held
    obtain ⟨g, inner, rfl⟩ := map_ok_iff.mp written
    exact ⟨g, inner, .nested holds there⟩

/-- The module of a package holds only the modules of packages of its tree. -/
theorem exists_module_of_holds (wf : m.WellFormed) (isPackage : m.isPackage root)
    (done : m.module settings root = .ok top) (holds : top.Holds g) :
    ∃ p, m.Within root p ∧ m.isPackage p ∧ m.module settings p = .ok g := by
  induction holds with
  | self => exact ⟨root, .self, isPackage, done⟩
  | nested _ there ih =>
    obtain ⟨p, within, isPackage, made⟩ := ih
    obtain ⟨-, -, nested⟩ := of_module_ok wf isPackage made
    obtain ⟨q, held, written⟩ := (results_of_mapM_ok nested).2 _ there
    obtain ⟨g, inner, same⟩ := map_ok_iff.mp written
    cases same
    exact ⟨q, .member within held, wf.isPackage_of_mem_subpackages held, inner⟩

/-- For a resolved package tree, generation writes one module for each package of the tree. It
declares the enums, the traits, the structs and the modules of the package, and their names are
different exactly if no two of the package clash. -/
theorem generate_names (settings : GenerationSettings) (wf : m.WellFormed) (isPackage : m.isPackage root)
    (resolved : m.isResolved root) (linked : m.Linked root) (above : m.AncestorsLinked root)
    (interfaces : settings.emit.interfaces) (structs : settings.emit.implementations) :
    ∃ top, m.generate settings root = .ok ⟨fileText top, top.typeCount⟩ ∧
      (∀ g, top.Holds g → ∃ p, m.Within root p ∧ m.isPackage p ∧ m.module settings p = .ok g) ∧
      ∀ p, m.Within root p → m.isPackage p → ∃ g, m.module settings p = .ok g ∧ top.Holds g ∧
        g.names.Perm (m.declaredNames settings.naming p) ∧
        (g.names.Nodup ↔ ¬ m.Clash settings.naming p) := by
  obtain ⟨top, done⟩ : Succeeds (m.module settings root) :=
    succeeds_moduleWithin settings m.size linked above
  have known : m.kind? root = some .ePackage := of_decide_eq_true isPackage
  obtain ⟨e, found, isKind⟩ := get?_of_kind? known
  refine ⟨top, ?_, fun g => exists_module_of_holds wf isPackage done, fun p within isPackage => ?_⟩
  · simp only [generate, require, found, demand, isKind, resolved, decide_true, if_true, ok_bind,
      done, pure, Except.pure]
  · obtain ⟨g, made, holds⟩ := exists_holds wf done within isPackage
    have names := names_of_module_ok wf isPackage interfaces structs made
    exact ⟨g, made, holds, names,
      names.nodup_iff.trans (wf.nodup_declaredNames_iff settings.naming p)⟩

/-- A document with a class and an enum that has the name of the struct of the class, and a package
with one class. -/
def twinDocument : List Event :=
  [.opening "EPackage" (.ofList [("name", "p")]),
    .opening "eEnums" (.ofList [("name", "AImpl")]), .closing,
    .opening "eClasses" (.ofList [("name", "A")]), .closing,
    .opening "eSubpackages" (.ofList [("name", "q")]),
    .opening "eClasses" (.ofList [("name", "B")]), .closing, .closing,
    .closing]

/-- The model with the elements of `twinDocument`. -/
def twinning : Model := (({} : Model).build "xsi:type" twinDocument none).toOption.elim {} Prod.fst

/-- The model with the elements of `twinDocument`, resolved. -/
def twinned : Model := (twinning.resolve ⟨0⟩ []).toOption.elim {} Prod.fst

theorem loaded_twinned : twinned.Loaded := by
  have built : ({} : Model).build "xsi:type" twinDocument none = .ok (twinning, ⟨0⟩) := rfl
  exact elim_toOption .empty fun _ _ done => .resolved (.document .empty built) done

theorem linked_twinned (id : ElementId) : twinned.Linked id :=
  fun x _ field => isResolved_of_elements (by decide +kernel) x field

/-- The class of the inner package declares two names. -/
theorem generate_names_twinned :
    ∃ top inner, twinned.generate {} ⟨0⟩ = .ok ⟨fileText top, top.typeCount⟩ ∧ top.Holds inner ∧
      inner.names.Perm ["B", "BImpl"] ∧ inner.names.Nodup := by
  obtain ⟨isPackage, resolved, held, inner, names⟩ : twinned.isPackage ⟨0⟩ ∧
      twinned.isResolved ⟨0⟩ ∧ ⟨3⟩ ∈ twinned.members .subpackages ⟨0⟩ ∧ twinned.isPackage ⟨3⟩ ∧
      twinned.declaredNames {} ⟨3⟩ = ["B", "BImpl"] := by decide +kernel
  obtain ⟨top, generated, -, each⟩ := generate_names {} loaded_twinned.wellFormed
    isPackage resolved (linked_twinned _) (fun _ _ _ _ => linked_twinned _) rfl rfl
  obtain ⟨g, -, holds, perm, -⟩ := each ⟨3⟩ (.member .self held) inner
  rw [names] at perm
  exact ⟨top, g, generated, holds, perm, perm.nodup_iff.mpr (by decide)⟩

/-- The enum and the struct of the class have the same name. -/
theorem names_twinned :
    twinned.isResolved ⟨0⟩ ∧ ∃ g, twinned.module {} ⟨0⟩ = .ok g ∧
      g.names.Perm ["AImpl", "A", "AImpl", "q"] ∧ ¬ g.names.Nodup := by
  obtain ⟨isPackage, resolved, names⟩ : twinned.isPackage ⟨0⟩ ∧ twinned.isResolved ⟨0⟩ ∧
      twinned.declaredNames {} ⟨0⟩ = ["AImpl", "A", "AImpl", "q"] := by decide +kernel
  obtain ⟨g, made⟩ : Succeeds (twinned.module {} ⟨0⟩) :=
    succeeds_moduleWithin {} twinned.size (linked_twinned _) (fun _ _ _ _ => linked_twinned _)
  have perm := names_of_module_ok loaded_twinned.wellFormed isPackage rfl rfl made
  rw [names] at perm
  exact ⟨resolved, g, made, perm, fun different => absurd (perm.nodup_iff.mp different) (by decide)⟩

end Model

end Metamodel
