import Metamodel.Proofs.Addressing
import Metamodel.Proofs.Coverage

/-!
The paths of types and the modules that they go through.

A path is read off the containers of a type, from the nearest package upwards. Modules are written
downwards, from a root along the subpackages. Both come to the same names in the same order, and so
a path ends in the module that declares its type.

Results:
1. `Loaded.exists_package`: every class and every enum is in a package.
2. `WellFormed.moduleNames_modulePath`: a path has the names of the modules from the root down.
3. `exists_opens`: the names lead to the module of the package.
4. `path_to_declaration`: where the paths of a type lead.
-/

namespace Metamodel

open Generated

namespace Generated

/-- Names lead from a module to one nested in it; the first name is its own. -/
inductive Module.Opens (top : Module) : List String → Module → Prop
  | self : Opens top [top.name] top
  | nested {names : List String} {outer inner : Module} :
      Opens top names outer → some inner ∈ outer.nested → Opens top (names ++ [inner.name]) inner

end Generated

namespace Scope

/-- The item is the type of an enum or of a class. -/
inductive TypeItem (s : Scope) (c : ElementId) : Item → Prop
  | enum : s.model.kind? c = some .eEnum → TypeItem s c (.enum (s.enumItem c))
  | trait {t : Trait} :
      s.model.kind? c = some .eClass → s.traitItem c = .ok t → TypeItem s c (.trait t)

variable {s : Scope} {c : ElementId}

theorem TypeItem.name_eq {item : Item} (type : s.TypeItem c item) :
    item.name = s.model.label c := by
  cases type with
  | enum => rfl
  | trait _ done => exact name_of_traitItem done

/-! ## Paths as texts -/

theorem exists_intercalate_eq (first name : String) (modules : List String) :
    ∃ between,
      "::".intercalate (first :: modules ++ [name]) = first ++ "::" ++ between ++ name := by
  induction modules generalizing first with
  | nil => exact ⟨"", by simp [String.intercalate_cons_cons, String.append_assoc]⟩
  | cons next rest ih =>
    obtain ⟨between, same⟩ := ih next
    refine ⟨next ++ "::" ++ between, ?_⟩
    rw [List.cons_append] at same ⊢
    rw [List.cons_append, String.intercalate_cons_cons, same]
    simp only [String.append_assoc]

/-- A path of more than one part is never a bare name. -/
theorem intercalate_ne (name : String) (modules : List String) :
    "::".intercalate ("crate" :: modules ++ [name]) ≠ name := by
  obtain ⟨between, whole⟩ := exists_intercalate_eq "crate" name modules
  intro same
  have length := congrArg String.length (whole.symm.trans same)
  simp only [String.length_append] at length
  have some : 0 < "crate".length := by decide
  omega

theorem path_eq {package : ElementId} (inside : s.model.containingPackage? c = some package) :
    s.path c =
      if s.current = some package then s.model.label c
      else "::".intercalate ("crate" :: s.modulePath package ++ [s.model.label c]) := by
  simp only [path, inside]

end Scope

namespace Model

variable {m : Model} {settings : GenerationSettings} {root p c : ElementId} {g top : Module}

/-! ## Places of types -/

theorem standard_contained {e : Element} {k : Kind}
    (found : ({} : Model).addStandardPackage.get? c = some e) (known : e.kind = k)
    (other : k ≠ .ePackage) : ∃ p, e.parent = some p := by
  have inside : ∀ i : Fin ({} : Model).addStandardPackage.elements.size,
      let e := ({} : Model).addStandardPackage.elements[i]
      e.kind ≠ .ePackage → e.parent.isSome := by decide +kernel
  subst known
  obtain ⟨there, rfl⟩ := Array.getElem?_eq_some_iff.mp found
  exact Option.isSome_iff_exists.mp (inside ⟨c.index, there⟩ other)

/-- Everything but packages is created inside something else. -/
theorem Loaded.exists_parent (loaded : m.Loaded) {k : Kind} (known : m.kind? c = some k)
    (other : k ≠ .ePackage) : ∃ p, m.parent? c = some p := by
  induction loaded generalizing c with
  | empty => exact absurd known (by simp [kind?, get?])
  | @document m m' root discriminator events _ built ih =>
    have grown := (build_tree m discriminator events none).1 m' root built
    rcases Nat.lt_or_ge c.index m.size with old | new
    · rw [kind?, grown.kept c old] at known
      rw [parent?, grown.kept c old]
      exact ih known
    · obtain ⟨e, found, -⟩ := get?_of_kind? known
      obtain ⟨s, ⟨inside, creates, rfl⟩, -⟩ := grown.made c new (lt_size_of_get? found)
      -- The first element of a document is a package, and every other one is put into an open one.
      have notFirst : m.idOf s ≠ root := by
        intro first
        have isPackage := grown.first.2.1
        rw [← first, Model.isPackage, known, decide_eq_true_eq, Option.some.injEq] at isPackage
        exact other isPackage
      obtain ⟨outer, -, -, -, -, -, above⟩ := grown.parent s inside creates notFirst
      exact ⟨_, above⟩
  | @standard m _ ih =>
    rw [addStandardPackage_eq] at known ⊢
    rcases m.lt_size_or_exists_shift c with old | ⟨c, rfl⟩
    · rw [kind?, get?_followedBy_of_lt m _ old] at known
      rw [parent?, get?_followedBy_of_lt m _ old]
      exact ih known
    · rw [kind?_followedBy] at known
      obtain ⟨e, found, isKind⟩ := get?_of_kind? known
      obtain ⟨p, above⟩ := standard_contained found isKind other
      rw [parent?_followedBy, parent?_of_get? found, above]
      exact ⟨p.shift m.size, rfl⟩
  | resolved _ resolved ih =>
    have same := sameOutline_resolve resolved
    rw [same.kind?] at known
    rw [same.parent?]
    exact ih known

/-- Every class and every enum is in a package. -/
theorem Loaded.exists_package (loaded : m.Loaded)
    (isType : m.kind? c = some .eClass ∨ m.kind? c = some .eEnum) :
    ∃ p, m.isPackage p ∧ m.parent? c = some p ∧
      (c ∈ m.members .classes p ∨ c ∈ m.enums p) := by
  have wf := loaded.wellFormed
  obtain ⟨k, known, isKind⟩ : ∃ k, m.kind? c = some k ∧ (k = .eClass ∨ k = .eEnum) :=
    isType.elim (fun known => ⟨_, known, .inl rfl⟩) fun known => ⟨_, known, .inr rfl⟩
  obtain ⟨p, above⟩ : ∃ p, m.parent? c = some p :=
    loaded.exists_parent known (by rcases isKind with rfl | rfl <;> decide)
  have named : (m.kind? c).any Kind.isNamed := by
    rw [known]
    rcases isKind with rfl | rfl <;> decide
  obtain ⟨slot, held⟩ := mem_allMembers.mp (loaded.namesHeld c p above named)
  obtain ⟨on, fits⟩ := wf.fits held
  have isSlot : slot = if k = .eClass then .classes else .dataTypes := by
    rw [known, Option.any_some] at fits
    rcases isKind with rfl | rfl <;> cases slot <;> first | rfl | exact absurd fits (by decide)
  have isPackage : m.isPackage p := by
    obtain ⟨owner, isOwner, onOwner⟩ := Option.any_eq_true _ _ |>.mp on
    rw [Model.isPackage, isOwner]
    rcases isKind with rfl | rfl <;> subst isSlot <;> simpa [Slot.isOn] using onOwner
  refine ⟨p, isPackage, above, ?_⟩
  rcases isKind with rfl | rfl <;> subst isSlot
  · exact .inl held
  · exact .inr (List.mem_filter.mpr ⟨held, decide_eq_true known⟩)

/-- Every package is in the tree of a root. -/
theorem Loaded.exists_root (loaded : m.Loaded) (isPackage : m.isPackage p) :
    ∃ root, m.isPackage root ∧ m.parent? root = none ∧ m.Within root p := by
  have wf := loaded.wellFormed
  have rooted := wf.acyclic p
  induction rooted with
  | @top p outermost => exact ⟨p, isPackage, outermost, .self⟩
  | @member p outer above _ ih =>
    have known : m.kind? p = some .ePackage := of_decide_eq_true isPackage
    have named : (m.kind? p).any Kind.isNamed := by
      rw [known]
      decide
    obtain ⟨slot, held⟩ := mem_allMembers.mp (loaded.namesHeld p outer above named)
    obtain ⟨-, isOuter⟩ := wf.nested_of_isPackage held isPackage
    obtain ⟨root, isRoot, outermost, below⟩ := ih isOuter
    exact ⟨root, isRoot, outermost, .member below held⟩

theorem WellFormed.containingPackage?_of_parent? (wf : m.WellFormed) (above : m.parent? c = some p)
    (isPackage : m.isPackage p) (other : m.isPackage c = false) :
    m.containingPackage? c = some p := by
  obtain ⟨e, found⟩ := get?_of_isPackage isPackage
  rw [containingPackage?, wf.ownerChain_of_parent? above, wf.ownerChain_eq_cons found,
    List.find?_cons, other, List.find?_cons, isPackage]

/-! ## Names of modules -/

/-- The names of the modules from that of `root` down to that of a package. -/
inductive ModuleNames (m : Model) (naming : NamingSettings) (root : ElementId) :
    ElementId → List String → Prop
  | root : ModuleNames m naming root root [naming.identifier (m.label root)]
  | nested {p q : ElementId} {names : List String} :
      ModuleNames m naming root p names → q ∈ m.members .subpackages p →
      ModuleNames m naming root q (names ++ [naming.identifier (m.label q)])

section Paths

variable {current : Option ElementId}

theorem WellFormed.modulePath_root (wf : m.WellFormed) (isRoot : m.isPackage root)
    (outermost : m.parent? root = none) : Scope.modulePath ⟨m, settings, current⟩ root =
      [settings.naming.identifier (m.label root)] := by
  obtain ⟨e, found⟩ := get?_of_isPackage isRoot
  rw [Scope.modulePath, wf.ownerChain_eq_cons found, outermost]
  rfl

theorem WellFormed.modulePath_nested (wf : m.WellFormed) {q : ElementId}
    (held : q ∈ m.members .subpackages p) : Scope.modulePath ⟨m, settings, current⟩ q =
      Scope.modulePath ⟨m, settings, current⟩ p ++ [settings.naming.identifier (m.label q)] := by
  rw [Scope.modulePath, wf.ownerChain_of_parent? (wf.parent held), List.map_cons,
    List.reverse_cons, Scope.modulePath]

/-- The way up by the containers and the way down by the subpackages have the same names. -/
theorem WellFormed.moduleNames_modulePath (wf : m.WellFormed) (isRoot : m.isPackage root)
    (outermost : m.parent? root = none) (within : m.Within root p) (isPackage : m.isPackage p) :
    m.ModuleNames settings.naming root p (Scope.modulePath ⟨m, settings, current⟩ p) := by
  induction within with
  | self =>
    rw [wf.modulePath_root isRoot outermost]
    exact .root
  | member _ held ih =>
    obtain ⟨held, isOuter⟩ := wf.nested_of_isPackage held isPackage
    rw [wf.modulePath_nested held]
    exact .nested (ih isOuter) held

end Paths

/-- What is written for a root has the module of every package of its tree where the names lead. -/
theorem exists_opens (wf : m.WellFormed) (done : m.module settings root = .ok top)
    {names : List String} (isRoot : m.isPackage root)
    (named : m.ModuleNames settings.naming root p names) :
    m.isPackage p ∧ ∃ g, m.module settings p = .ok g ∧ top.Opens names g := by
  induction named with
  | root =>
    refine ⟨isRoot, top, done, ?_⟩
    rw [← (of_module_ok wf isRoot done).1]
    exact .self
  | @nested p q names _ held ih =>
    obtain ⟨isOuter, outer, made, opens⟩ := ih
    obtain ⟨-, -, nested⟩ := of_module_ok wf isOuter made
    obtain ⟨_, there, written⟩ := (results_of_mapM_ok nested).1 q held
    obtain ⟨g, inner, rfl⟩ := map_ok_iff.mp written
    have isPackage := wf.isPackage_of_mem_subpackages held
    refine ⟨isPackage, g, inner, ?_⟩
    rw [← (of_module_ok wf isPackage inner).1]
    exact .nested opens there

/-- Among the items of a module there is the type of every class and of every enum, if types are
written. -/
theorem Covers.exists_typeItem (covers : m.Covers settings p g)
    (wanted : settings.emit.interfaces) (wf : m.WellFormed)
    (held : c ∈ m.members .classes p ∨ c ∈ m.enums p) :
    ∃ item ∈ g.items, Scope.TypeItem ⟨m, settings, some p⟩ c item := by
  cases covers with
  | @module _ _ classes enums traits structs _ _ declares items _ _ =>
    rw [items]
    rcases held with isClass | isEnum
    · have results : traits.map .ok = classes.map (Scope.traitItem ⟨m, settings, some p⟩) :=
        declares.traits.trans (if_pos wanted)
      have listed : Scope.traitItem ⟨m, settings, some p⟩ c ∈ traits.map Except.ok := by
        rw [results]
        exact List.mem_map_of_mem (declares.eachClass.mem_iff.mpr isClass)
      obtain ⟨t, there, same⟩ := List.mem_map.mp listed
      refine ⟨.trait t, ?_, .trait (wf.kind?_class isClass) same.symm⟩
      exact List.mem_append_left _ (List.mem_append_right _ (List.mem_map_of_mem there))
    · have results : enums = (m.enums p).map (Scope.enumItem ⟨m, settings, some p⟩) :=
        declares.enums.trans (if_pos wanted)
      refine ⟨.enum (Scope.enumItem ⟨m, settings, some p⟩ c), ?_,
        .enum (of_decide_eq_true (List.mem_filter.mp isEnum).2)⟩
      rw [results]
      exact List.mem_append_left _ (List.mem_append_left _
        (List.mem_map_of_mem (List.mem_map_of_mem isEnum)))

/-! ## Generated code -/

theorem exists_module_of_generate {code : GeneratedCode}
    (done : m.generate settings root = .ok code) :
    ∃ top, m.module settings root = .ok top ∧ code = ⟨fileText top, top.typeCount⟩ := by
  unfold generate at done
  obtain ⟨e, -, done⟩ := bind_ok_iff.mp done
  obtain ⟨-, -, done⟩ := bind_ok_iff.mp done
  obtain ⟨-, -, done⟩ := bind_ok_iff.mp done
  obtain ⟨top, made, done⟩ := bind_ok_iff.mp done
  cases done
  exact ⟨top, made, rfl⟩

/-- Seen from its own package, and from no other, a class or an enum goes by its bare name. From
elsewhere its path has the names of the modules that are written for its root, one in the other, as
far as the module that declares the type under that name. -/
theorem path_to_declaration (prepared : m.Prepared) (settings : GenerationSettings) {c : ElementId}
    (isType : m.kind? c = some .eClass ∨ m.kind? c = some .eEnum) :
    ∃ root package modules, m.isPackage root ∧ m.parent? root = none ∧ m.Within root c ∧
      m.containingPackage? c = some package ∧
      m.ModuleNames settings.naming root package modules ∧
      (∀ current, Scope.path ⟨m, settings, some current⟩ c = m.label c ↔ current = package) ∧
      (∀ current, current ≠ package → Scope.path ⟨m, settings, some current⟩ c =
        "::".intercalate ("crate" :: modules ++ [m.label c])) ∧
      (m.isResolved root → (settings.emit.implementations → m.InheritsLinked root) →
        ∃ code, m.generate settings root = .ok code) ∧
      ∀ code, m.generate settings root = .ok code → ∃ top g, code.code = fileText top ∧
        top.Opens modules g ∧ m.Covers settings package g ∧
        (settings.emit.interfaces →
          ∃ item ∈ g.items, Scope.TypeItem ⟨m, settings, some package⟩ c item ∧
            item.name = m.label c) := by
  have sound := prepared.soundMarks
  have wf := sound.loaded.wellFormed
  obtain ⟨package, isPackage, above, held⟩ := sound.loaded.exists_package isType
  obtain ⟨root, isRoot, outermost, below⟩ := sound.loaded.exists_root isPackage
  have notPackage : m.isPackage c = false := by
    rcases isType with known | known <;> simp [Model.isPackage, known]
  have inside := wf.containingPackage?_of_parent? above isPackage notPackage
  have within : m.Within root c := held.elim (.member below) fun isEnum =>
    .member below (List.mem_of_mem_filter isEnum)
  have named : m.ModuleNames settings.naming root package
      (Scope.modulePath ⟨m, settings, none⟩ package) :=
    wf.moduleNames_modulePath isRoot outermost below isPackage
  have path (current : ElementId) := Scope.path_eq (s := ⟨m, settings, some current⟩) inside
  refine ⟨root, package, _, isRoot, outermost, within, inside, named, fun current => ?_,
    fun current other => ?_, fun resolved inherited => ?_, fun code done => ?_⟩
  · rw [path current]
    split
    · next here => exact ⟨fun _ => Option.some.inj here, fun _ => rfl⟩
    · next elsewhere =>
      refine ⟨fun bare => absurd bare (Scope.intercalate_ne _ _), fun here => ?_⟩
      exact absurd (congrArg some here) elsewhere
  · rw [path current, if_neg fun here => other (Option.some.inj here)]
    rfl
  · obtain ⟨top, made⟩ : Succeeds (m.module settings root) :=
      succeeds_moduleWithin_of_features settings m.size (sound.linked root resolved) inherited
    exact ⟨_, (generate_ok_iff resolved).mpr ⟨top, made, rfl⟩⟩
  · obtain ⟨top, made, rfl⟩ := exists_module_of_generate done
    obtain ⟨-, g, inner, opens⟩ := exists_opens wf made isRoot named
    have covers := covers_of_module_ok wf isPackage inner
    refine ⟨top, g, rfl, opens, covers, fun wanted => ?_⟩
    obtain ⟨item, there, type⟩ := covers.exists_typeItem wanted wf held
    exact ⟨item, there, type, type.name_eq⟩

/-- A document with packages in packages; the name of one is a keyword. -/
def shelvedDocument : List Event :=
  [.opening "EPackage" (.ofList [("name", "library")]),
    .opening "eClasses" (.ofList [("name", "Shelf")]), .closing,
    .opening "eSubpackages" (.ofList [("name", "type")]),
    .opening "eSubpackages" (.ofList [("name", "rareBooks")]),
    .opening "eClasses" (.ofList [("name", "Folio")]), .closing,
    .opening "eEnums" (.ofList [("name", "Binding")]), .closing,
    .closing, .closing, .closing]

/-- The model with the elements of `shelvedDocument`. -/
def shelving : Model :=
  (({} : Model).build "xsi:type" shelvedDocument none).toOption.elim {} Prod.fst

/-- The model of `shelving` after a round over its root. -/
def shelved : Model := (shelving.resolveAll [⟨0⟩]).toOption.elim {} Prod.fst

theorem prepared_shelved : shelved.Prepared := by
  have built : ({} : Model).build "xsi:type" shelvedDocument none = .ok (shelving, ⟨0⟩) := rfl
  exact elim_toOption .empty fun _ _ done => .resolved (.document .empty built) done

/-- Seen from the outermost package, the path of the innermost enum goes through three modules. -/
theorem path_to_declaration_shelved :
    Scope.path ⟨shelved, {}, some ⟨0⟩⟩ ⟨5⟩ = "crate::library::r#type::rare_books::Binding" ∧
      ∃ modules code top g, shelved.generate {} ⟨0⟩ = .ok code ∧ code.code = fileText top ∧
        "crate::library::r#type::rare_books::Binding" =
          "::".intercalate ("crate" :: modules ++ ["Binding"]) ∧
        top.Opens modules g ∧ ∃ item ∈ g.items, item.name = "Binding" := by
  obtain ⟨isEnum, label, nearest, outermost, resolved, all, far⟩ :
      shelved.kind? ⟨5⟩ = some .eEnum ∧ shelved.label ⟨5⟩ = "Binding" ∧
      shelved.containingPackage? ⟨5⟩ = some ⟨3⟩ ∧ shelved.parent? ⟨0⟩ = none ∧
      shelved.isResolved ⟨0⟩ ∧
      (∀ i : Fin shelved.size, shelved.isPackage ⟨i⟩ → shelved.isResolved ⟨i⟩) ∧
      Scope.path ⟨shelved, {}, some ⟨0⟩⟩ ⟨5⟩ = "crate::library::r#type::rare_books::Binding" := by
    decide +kernel
  obtain ⟨outer, middle, inner⟩ : ⟨2⟩ ∈ shelved.members .subpackages ⟨0⟩ ∧
      ⟨3⟩ ∈ shelved.members .subpackages ⟨2⟩ ∧ ⟨5⟩ ∈ shelved.members .dataTypes ⟨3⟩ := by
    decide +kernel
  have sound := prepared_shelved.soundMarks
  have inherited : shelved.InheritsLinked ⟨0⟩ := by
    refine sound.inheritsLinked resolved fun p isPackage => ?_
    obtain ⟨e, found⟩ := get?_of_isPackage isPackage
    exact all ⟨p.index, lt_size_of_get? found⟩ isPackage
  obtain ⟨root, package, modules, -, none, within, inside, -, -, path, succeeds, leads⟩ :=
    path_to_declaration prepared_shelved {} (.inr isEnum)
  obtain rfl : root = ⟨0⟩ := sound.loaded.wellFormed.root_unique none outermost within
    (.member (.member (.member .self outer) middle) inner)
  obtain rfl : package = ⟨3⟩ := Option.some.inj (inside.symm.trans nearest)
  have whole := path ⟨0⟩ (by decide)
  obtain ⟨code, done⟩ := succeeds resolved fun _ => inherited
  obtain ⟨top, g, text, opens, -, declared⟩ := leads code done
  obtain ⟨item, there, -, name⟩ := declared rfl
  rw [label] at whole name
  exact ⟨far, modules, code, top, g, done, text, far.symm.trans whole, opens, item, there, name⟩

end Model

end Metamodel
