import Metamodel.Proofs.Documents

/-!
The ids that elements hold.

An element holds ids in its slots, in its resolved links and where it notes its container. Whatever
is done to a model, every element has its position as its id and holds ids of elements that exist,
also where containment has a loop: an addition has both elements, and a pass of resolution writes
the targets that it has found.

An element whose ids all are below a bound is one that no renaming of other ids changes, and the
operations on one element may be done before a renaming or after it. So each operation keeps the
bound because it does the same under other ids.

Results:
1. `Element.inside_iff`: the bound as a statement on renamings.
2. `confined_append`, `confined_modify`, `confined_attach`: the basic operations on a model.
3. `confined_resolve`: passes of resolution.
4. `Made.confined`: all models that the operations make.
-/

namespace Metamodel

/-! ## Renamings that change nothing -/

section Fixed

variable {f : ElementId → ElementId}

theorem map_eq_self_iff {α : Type} {f : α → α} {l : List α} : l.map f = l ↔ ∀ a ∈ l, f a = a := by
  conv_lhs => rhs; rw [← List.map_id l]
  exact List.map_eq_map_iff

theorem Option.map_eq_self_iff {α : Type} {f : α → α} {o : Option α} :
    o.map f = o ↔ ∀ a ∈ o, f a = a := by
  cases o <;> simp

theorem OrderedMap.map_eq_self_iff {α : Type} {f : α → α} {m : OrderedMap α} :
    m.map f = m ↔ ∀ a ∈ m.values, f a = a := by
  rw [values, List.forall_mem_map]
  constructor
  · intro same entry member
    have entries : m.entries.map (fun entry => (entry.1, f entry.2)) = m.entries :=
      congrArg OrderedMap.entries same
    exact congrArg Prod.snd (Metamodel.map_eq_self_iff.mp entries entry member)
  · intro fixed
    refine eq_of_entries (Metamodel.map_eq_self_iff.mpr fun entry member => ?_)
    rw [fixed entry member]

theorem OrderedMap.mem_values_of_get? {α : Type} {m : OrderedMap α} {key : String} {a : α}
    (found : m.get? key = some a) : a ∈ m.values := by
  unfold get? at found
  unfold values
  generalize m.entries = entries at found ⊢
  induction entries with
  | nil => cases found
  | cons entry rest ih =>
    rw [List.lookup_cons] at found
    rw [List.map_cons]
    split at found
    · cases found
      exact List.mem_cons_self
    · exact List.mem_cons_of_mem _ (ih found)

theorem Link.target?_rename (f : ElementId → ElementId) (link : Link) :
    (link.rename f).target? = link.target?.map f := by
  cases link <;> rfl

theorem Link.rename_eq_self_iff {link : Link} :
    link.rename f = link ↔ ∀ id ∈ link.target?, f id = id := by
  cases link <;> simp [rename, target?]

namespace Body

theorem renameClassifier_eq_self_iff {c : Classifier} : renameClassifier f c = c ↔
    c.typeParameters.map f = c.typeParameters ∧ c.package.map f = c.package := by
  cases c
  simp [renameClassifier]

theorem renameTyped_eq_self_iff {t : TypedElement} : renameTyped f t = t ↔
    t.eType.map (Link.rename f) = t.eType ∧ t.genericType.map f = t.genericType := by
  cases t
  simp [renameTyped]

theorem renameFeature_eq_self_iff {s : StructuralFeature} : renameFeature f s = s ↔
    renameTyped f s.toTypedElement = s.toTypedElement ∧
      s.containingClass.map f = s.containingClass := by
  cases s
  simp [renameFeature]

theorem renameDataType_eq_self_iff {d : EDataType} : renameDataType f d = d ↔
    renameClassifier f d.toClassifier = d.toClassifier := by
  cases d
  simp [renameDataType]

/-- Every id that a body holds: in slots, in links, as its container, and as content of a note. -/
def ids (b : Body) : List ElementId :=
  (Slot.all.flatMap fun slot => b.members slot) ++
    (LinkField.all.flatMap fun field => (b.links field).filterMap Link.target?) ++
    b.noted?.toList ++ b.noteContents

theorem rename_eq_self_iff {b : Body} : b.rename f = b ↔ ∀ id ∈ b.ids, f id = id := by
  cases b with
  | _ content =>
    cases content
    simp [rename, ids, Slot.all, LinkField.all, members, links, noted?, noteContents, typed?, note?,
      renameClassifier_eq_self_iff, renameTyped_eq_self_iff, renameFeature_eq_self_iff,
      renameDataType_eq_self_iff, map_eq_self_iff, Option.map_eq_self_iff,
      OrderedMap.map_eq_self_iff, Link.rename_eq_self_iff] <;> grind

theorem ids_rename (f : ElementId → ElementId) (b : Body) : (b.rename f).ids = b.ids.map f := by
  cases b <;>
    simp [rename, ids, Slot.all, LinkField.all, members, links, noted?, noteContents, typed?, note?,
      renameTyped, renameFeature, renameClassifier, renameDataType, OrderedMap.values,
      OrderedMap.entries_map, Option.toList_map, List.map_filterMap, Link.target?_rename,
      Function.comp_def]

theorem rename_setLinks (f : ElementId → ElementId) (field : LinkField) (links : List Link)
    (b : Body) : (b.setLinks field links).rename f =
      (b.rename f).setLinks field (links.map (Link.rename f)) := by
  cases field <;> cases b <;>
    simp [setLinks, rename, mapTyped, mapClass, mapReference, mapOperation, mapGenericType,
      mapPackage, mapNote, renameTyped, renameFeature, List.head?_map]

theorem rename_setTarget (f : ElementId → ElementId) (field : LinkField) (index : Nat)
    (target : ElementId) (b : Body) :
    (b.setTarget field index target).rename f = (b.rename f).setTarget field index (f target) := by
  rw [setTarget, setTarget, rename_setLinks, Model.Body.links_rename, List.map_set]
  rfl

end Body

end Fixed

namespace Element

/-- The id of an element and every id that it holds. -/
def ids (e : Element) : List ElementId :=
  e.id :: e.parent.toList ++ e.annotations ++ e.body.ids

theorem rename_eq_self_iff {f : ElementId → ElementId} {e : Element} :
    e.rename f = e ↔ ∀ id ∈ e.ids, f id = id := by
  obtain ⟨id, name, parent, annotations, body⟩ := e
  simp [rename, ids, map_eq_self_iff, Option.map_eq_self_iff, Body.rename_eq_self_iff]
  grind

theorem ids_rename (f : ElementId → ElementId) (e : Element) :
    (e.rename f).ids = e.ids.map f := by
  simp [ids, rename, Body.ids_rename, Option.toList_map]

theorem mem_ids_of_mem_members {slot : Slot} {e : Element} {c : ElementId}
    (held : c ∈ e.members slot) : c ∈ e.ids := by
  unfold members at held
  split at held
  · simp [ids, held]
  · have listed : slot ∈ Slot.all := by cases slot <;> decide
    have inBody : c ∈ e.body.ids := by
      simp only [Body.ids, List.mem_append, List.mem_flatMap]
      exact .inl (.inl (.inl ⟨slot, listed, held⟩))
    simp [ids, inBody]

/-- All ids of an element are below a bound. -/
def Inside (bound : Nat) (e : Element) : Prop := ∀ id ∈ e.ids, id.index < bound

instance (bound : Nat) (e : Element) : Decidable (e.Inside bound) :=
  inferInstanceAs (Decidable (∀ id ∈ e.ids, id.index < bound))

variable {bound : Nat} {e : Element}

theorem Inside.mono {more : Nat} (inside : e.Inside bound) (le : bound ≤ more) : e.Inside more :=
  fun id held => Nat.lt_of_lt_of_le (inside id held) le

/-- Moves every id that is not below a bound. -/
def clip (bound : Nat) (id : ElementId) : ElementId :=
  if id.index < bound then id else ⟨id.index + 1⟩

theorem clip_eq_self_iff {id : ElementId} : clip bound id = id ↔ id.index < bound := by
  obtain ⟨index⟩ := id
  unfold clip
  split <;> simp_all

/-- The ids of an element are below a bound exactly if only ids below the bound matter to it. -/
theorem inside_iff : e.Inside bound ↔
    ∀ f : ElementId → ElementId, (∀ id, id.index < bound → f id = id) → e.rename f = e := by
  constructor
  · intro inside f fixes
    exact rename_eq_self_iff.mpr fun id held => fixes id (inside id held)
  · intro unchanged id held
    have fixed := unchanged (clip bound) fun id => clip_eq_self_iff.mpr
    exact clip_eq_self_iff.mp (rename_eq_self_iff.mp fixed id held)

/-- What does the same under other ids brings no new ids in. -/
theorem Inside.of_rename {g : Element → Element} (inside : e.Inside bound)
    (same : ∀ f : ElementId → ElementId, (∀ id, id.index < bound → f id = id) →
      (g e).rename f = g (e.rename f)) : (g e).Inside bound := by
  refine inside_iff.mpr fun f fixes => ?_
  rw [same f fixes, inside_iff.mp inside f fixes]

theorem inside_blank {id : ElementId} (below : id.index < bound) (kind : Kind)
    (name : Option String) : { blank id kind with name := name }.Inside bound := by
  refine inside_iff.mpr fun f fixes => ?_
  simp [rename, blank, Body.rename_blank, fixes id below]

theorem inside_afterAttributes {id : ElementId} (below : id.index < bound) (skip : String)
    (attributes : List (String × String)) (kind : Kind) :
    (afterAttributes skip attributes (blank id kind)).Inside bound := by
  refine inside_iff.mpr fun f fixes => ?_
  have renamed := rename_applyAttributes f skip attributes (blank id kind)
  rw [rename_blank, fixes id below] at renamed
  unfold afterAttributes
  cases applied : applyAttributes skip attributes (blank id kind) with
  | ok e =>
    rw [applied] at renamed
    exact (Except.ok.inj renamed).symm
  | error failure =>
    rw [applied] at renamed
    exact (congrArg Prod.snd (Except.error.inj renamed)).symm

theorem id_afterAttributes (skip : String) (attributes : List (String × String)) (e : Element) :
    (afterAttributes skip attributes e).id = e.id := by
  have same := congrArg Element.id (bare_applyAttributes skip attributes e)
  exact same

end Element

/-! ## Models -/

namespace Model

variable {m m' c : Model}

/-- Every element has its position as its id and holds ids of elements of the model only. -/
def Confined (m : Model) : Prop := ∀ id e, m.get? id = some e → e.id = id ∧ e.Inside m.size

theorem confined_of_forall (all : ∀ (i : Nat) (_ : i < m.elements.size),
    m.elements[i].id = ⟨i⟩ ∧ m.elements[i].Inside m.size) : m.Confined := by
  intro id e found
  obtain ⟨inside, rfl⟩ := Array.getElem?_eq_some_iff.mp found
  exact all id.index inside

theorem confined_empty : Confined {} := by
  intro id e found
  simp [get?] at found

theorem confined_append {e : Element} (confined : m.Confined) (own : e.id = m.nextId)
    (inside : e.Inside (m.size + 1)) : (m.append e).Confined := by
  intro id e' found
  rw [size_append]
  rw [get?_append] at found
  split at found
  · next isNext =>
    cases found
    exact ⟨own.trans isNext.symm, inside⟩
  · obtain ⟨isId, inside⟩ := confined id e' found
    exact ⟨isId, inside.mono (Nat.le_succ _)⟩

theorem confined_create (confined : m.Confined) (kind : Kind) (name : Option String) :
    (m.create kind name).Confined :=
  confined_append confined rfl (Element.inside_blank (Nat.lt_succ_self m.size) kind name)

/-- A change of one element that keeps its id and does the same under other ids. -/
theorem confined_modify {id : ElementId} {g : Element → Element} (confined : m.Confined)
    (own : ∀ e, (g e).id = e.id)
    (same : ∀ e, ∀ f : ElementId → ElementId, (∀ id, id.index < m.size → f id = id) →
      (g e).rename f = g (e.rename f)) : (m.modify id g).Confined := by
  intro other e found
  rw [size_modify]
  rw [get?_modify] at found
  split at found
  · next here =>
    obtain ⟨e, before, rfl⟩ := Option.map_eq_some_iff.mp found
    obtain ⟨isId, inside⟩ := confined id e before
    exact ⟨(own e).trans (isId.trans here.symm), inside.of_rename (same e)⟩
  · exact confined other e found

theorem confined_modifyBody {id : ElementId} {g : Body → Body} (confined : m.Confined)
    (same : ∀ b, ∀ f : ElementId → ElementId, (∀ id, id.index < m.size → f id = id) →
      (g b).rename f = g (b.rename f)) : (m.modifyBody id g).Confined :=
  confined_modify confined (fun _ => rfl) fun e f fixes => by
    simp [Element.rename, same e.body f fixes]

/-! ## Additions -/

theorem confined_attach {slot : Slot} {owner member : ElementId} (confined : m.Confined)
    (knownOwner : owner.index < m.size) (known : member.index < m.size) :
    (m.attach slot owner member).Confined := by
  have placed : (m.modify owner (Element.place slot (m.label member) member)).Confined := by
    refine confined_modify confined (fun e => ?_) fun e f fixes => ?_
    · unfold Element.place
      split <;> rfl
    · rw [Element.rename_place, fixes member known]
  refine confined_modify placed (fun e => rfl) fun e f fixes => ?_
  rw [size_modify] at fixes
  rw [Element.rename_ownedBy, fixes owner knownOwner]

theorem confined_add {slot : Slot} {owner member : ElementId} (confined : m.Confined)
    (added : m.add slot owner member = .ok m') : m'.Confined := by
  obtain ⟨container, content, held, there, -, -, -, -, -, rfl⟩ := add_ok_iff.mp added
  exact confined_attach confined (lt_size_of_get? held) (lt_size_of_get? there)

theorem confined_addDetail {note : ElementId} {key value : String} (confined : m.Confined)
    (added : m.addDetail note key value = .ok m') : m'.Confined := by
  unfold addDetail at added
  obtain ⟨e, -, added⟩ := bind_ok_iff.mp added
  obtain ⟨-, -, added⟩ := bind_ok_iff.mp added
  cases added
  exact confined_modifyBody confined fun b f _ => by cases b <;> rfl

/-! ## Documents -/

theorem confined_handle {c : Construction} (confined : c.model.Confined) (discriminator : String)
    (event : Event) : (Construction.after (c.handle discriminator event)).model.Confined := by
  have created (attributes : OrderedMap String) (kind : Kind) :
      (c.model.append (c.newElement discriminator attributes kind)).Confined :=
    confined_append confined (Element.id_afterAttributes _ _ _)
      (Element.inside_afterAttributes (Nat.lt_succ_self c.model.size) _ _ kind)
  have result := c.handled discriminator event
  generalize c.handle discriminator event = outcome at result ⊢
  cases result with
  | unchanged => exact confined
  | closed => exact confined
  | detailed added => exact confined_addDetail confined added
  | rejected => exact created _ _
  | outermost => exact created _ _
  | inside added => exact confined_add (created _ _) added

/-- The model that a call leaves, whether it succeeds or not. -/
def leftBy {α : Type} : Except (Error × Model) (Model × α) → Model
  | .ok (m, _) => m
  | .error (_, m) => m

theorem confined_build (confined : m.Confined) (discriminator : String) (events : List Event)
    (fault : Option Error) : (leftBy (m.build discriminator events fault)).Confined := by
  have kept := Construction.after_foldlM (c := { model := m })
    (fun _ event held => confined_handle held discriminator event) confined events
  unfold build
  cases handled : events.foldlM (Construction.handle discriminator) { model := m } with
  | error failure =>
    rw [handled] at kept
    exact kept
  | ok c =>
    rw [handled] at kept
    cases fault with
    | some error => exact kept
    | none =>
      dsimp only
      split <;> exact kept

/-! ## The standard package -/

theorem confined_followedBy (confined : m.Confined) (confinedBehind : c.Confined) :
    (m.followedBy c).Confined := by
  intro id e found
  rw [size_followedBy]
  rcases m.lt_size_or_exists_shift id with old | ⟨id, rfl⟩
  · rw [get?_followedBy_of_lt m c old] at found
    obtain ⟨isId, inside⟩ := confined id e found
    exact ⟨isId, inside.mono (Nat.le_add_right _ _)⟩
  · rw [get?_followedBy_shift] at found
    obtain ⟨e, foundBehind, rfl⟩ := Option.map_eq_some_iff.mp found
    obtain ⟨isId, inside⟩ := confinedBehind id e foundBehind
    refine ⟨congrArg (ElementId.shift m.size) isId, fun other held => ?_⟩
    rw [Element.ids_rename] at held
    obtain ⟨other, heldBehind, rfl⟩ := List.mem_map.mp held
    exact Nat.add_lt_add_left (inside other heldBehind) m.size

theorem confined_addStandardPackage (confined : m.Confined) : m.addStandardPackage.Confined := by
  have alone : ({} : Model).addStandardPackage.Confined := confined_of_forall (by decide +kernel)
  rw [addStandardPackage_eq]
  exact confined_followedBy confined alone

/-! ## Resolution -/

theorem Confined.lt_of_mem_members (confined : m.Confined) {slot : Slot} {p c : ElementId}
    (held : c ∈ m.members slot p) : c.index < m.size := by
  unfold members at held
  cases found : m.get? p with
  | none => simp [found] at held
  | some e =>
    rw [found] at held
    exact (confined p e found).2 c (Element.mem_ids_of_mem_members held)

theorem Confined.lt_of_memberNamed? (confined : m.Confined) {p c : ElementId} {name : String}
    (named : m.memberNamed? p name = some c) : c.index < m.size := by
  unfold memberNamed? at named
  -- A package looks into its tables, anything else goes through its members.
  cases package : m.package? p with
  | some content =>
    simp only [package, Option.orElse_eq_orElse, Option.orElse_eq_or,
      Option.or_eq_some_iff] at named
    obtain ⟨b, there, isContent⟩ := Option.bind_eq_some_iff.mp package
    obtain rfl : b = .ePackage content := by cases b <;> simp_all [Body.package?]
    obtain ⟨e, found, body⟩ := Option.map_eq_some_iff.mp there
    have inTable {table : OrderedMap ElementId} {slot : Slot} (here : table.get? name = some c)
        (held : m.members slot p = table.values) : c.index < m.size := by
      have member := OrderedMap.mem_values_of_get? here
      rw [← held] at member
      exact confined.lt_of_mem_members member
    have members (slot : Slot) (own : slot ≠ .annotations) :
        m.members slot p = (Body.ePackage content).members slot := by
      simp [Model.members, found, Element.members, own, body]
    rcases named with here | ⟨-, here | ⟨-, here⟩⟩
    · exact inTable here (members .classes (by decide))
    · exact inTable here (members .dataTypes (by decide))
    · exact inTable here (members .subpackages (by decide))
  | none =>
    simp only [package] at named
    have listed := List.mem_of_find?_eq_some named
    unfold namedMembers at listed
    split at listed
    · simp only [List.mem_append] at listed
      rcases listed with ((held | held) | held) | held <;> exact confined.lt_of_mem_members held
    · exact confined.lt_of_mem_members listed
    · rcases List.mem_append.mp listed with held | held <;> exact confined.lt_of_mem_members held
    · exact confined.lt_of_mem_members listed
    · cases listed

theorem Confined.lt_of_follow? (confined : m.Confined) {p c : ElementId} {path : List String}
    (known : p.index < m.size) (followed : m.follow? p path = some c) : c.index < m.size := by
  induction path generalizing p with
  | nil =>
    cases followed
    exact known
  | cons name path ih =>
    obtain ⟨member, named, rest⟩ := Option.bind_eq_some_iff.mp followed
    exact ih (confined.lt_of_memberNamed? named) rest

theorem lt_size_of_hasNsPrefix {nsPrefix : String} {id : ElementId}
    (has : m.hasNsPrefix nsPrefix id) : id.index < m.size := by
  unfold hasNsPrefix package? body? at has
  cases found : m.get? id with
  | none => simp [found] at has
  | some e => exact lt_size_of_get? found

theorem Confined.lt_of_target (confined : m.Confined) {opened peers : List ElementId}
    {holder target : ElementId} {uri : String} (known : ∀ id ∈ opened, id.index < m.size)
    (aimed : m.target opened peers holder uri = .ok target) : target.index < m.size := by
  cases read : Reference.ofString? uri with
  | none => exact absurd aimed (target_of_unreadable read)
  | some reference =>
    cases reference with
    | fragment path =>
      obtain ⟨package, first, followed⟩ := (target_fragment_ok_iff read).mp aimed
      exact confined.lt_of_follow? (known package (List.mem_of_head? first)) followed
    | qualified nsPrefix kind nsUri path =>
      obtain ⟨package, found, followed, -⟩ := (target_qualified_ok_iff read).mp aimed
      refine confined.lt_of_follow? ?_ followed
      simp only [packageWithPrefix?, Option.orElse_eq_orElse, Option.orElse_eq_or,
        Option.or_eq_some_iff] at found
      rcases found with inside | ⟨-, outside⟩
      · exact known package (List.mem_of_find?_eq_some inside)
      · exact lt_size_of_hasNsPrefix (List.find?_some outside)

/-- What holds before a step of a sequence and is kept by each of them holds in the end. -/
theorem of_foldlM_ok {ε σ α : Type} {P : σ → Prop} {f : σ → α → Except ε σ} {l : List α} {s s' : σ}
    (keeps : ∀ a ∈ l, ∀ {s s'}, P s → f s a = .ok s' → P s') (start : P s)
    (done : l.foldlM f s = .ok s') : P s' := by
  induction l generalizing s with
  | nil =>
    cases done
    exact start
  | cons a l ih =>
    rw [List.foldlM_cons] at done
    obtain ⟨next, first, rest⟩ := bind_ok_iff.mp done
    exact ih (fun b later => keeps b (List.mem_cons_of_mem a later))
      (keeps a List.mem_cons_self start first) rest

/-- The open packages and the targets of a pass are elements of the model. -/
structure PassInside (m : Model) (pass : ResolutionPass) : Prop where
  opened : ∀ id ∈ pass.opened, id.index < m.size
  patches : ∀ p ∈ pass.patches, p.target.index < m.size

theorem Confined.passInside_planField (confined : m.Confined) {peers : List ElementId}
    {element : ElementId} {field : LinkField} {pass pass' : ResolutionPass}
    (inside : m.PassInside pass) (planned : m.planField peers element pass field = .ok pass') :
    m.PassInside pass' := by
  unfold planField at planned
  obtain ⟨planned', links, last⟩ := bind_ok_iff.mp planned
  have isSame : planned' = pass' := by
    split at last
    · split at last
      · cases last
      · exact Except.ok.inj last
    · exact Except.ok.inj last
  subst isSame
  refine of_foldlM_ok (P := m.PassInside) (fun link _ pass pass' inside step => ?_) inside links
  obtain ⟨link, index⟩ := link
  cases link with
  | resolved target =>
    cases step
    exact ⟨inside.opened, inside.patches⟩
  | symbolic uri =>
    obtain ⟨target, aimed, step⟩ := bind_ok_iff.mp step
    cases step
    refine ⟨inside.opened, fun p new => ?_⟩
    rcases List.mem_append.mp new with old | new
    · exact inside.patches p old
    · rw [List.mem_singleton.mp new]
      exact confined.lt_of_target inside.opened aimed

theorem lt_size_of_mem_lineageVisits {inner : ElementId → List Visit} {id : ElementId}
    (known : id.index < m.size)
    (insideInner : ∀ id, ∀ visit ∈ inner id, visit.element.index < m.size)
    {lineage : List Metaclass} {visit : Visit} (met : visit ∈ m.lineageVisits inner id lineage) :
    visit.element.index < m.size := by
  induction lineage with
  | nil => cases met
  | cons c general ih =>
    simp only [lineageVisits, List.mem_cons, List.mem_append, List.mem_flatMap, List.not_mem_nil,
      or_false] at met
    rcases met with rfl | (general | ⟨x, -, inner⟩) | rfl
    · exact known
    · exact ih general
    · exact insideInner x visit inner
    · exact known

theorem lt_size_of_mem_visitsWithin {depth : Nat} {id : ElementId} {visit : Visit}
    (met : visit ∈ m.visitsWithin depth id) : visit.element.index < m.size := by
  induction depth generalizing id visit with
  | zero => cases met
  | succ depth ih =>
    cases found : m.get? id with
    | none => simp [visitsWithin, lineage, kind?, found, lineageVisits] at met
    | some e => exact lt_size_of_mem_lineageVisits (lt_size_of_get? found) (fun _ _ => ih) met

theorem Confined.passInside_take (confined : m.Confined) {peers : List ElementId} {visit : Visit}
    (known : visit.element.index < m.size) {pass pass' : ResolutionPass}
    (inside : m.PassInside pass) (taken : (m.resolutionVisitor peers).take pass visit = .ok pass') :
    m.PassInside pass' := by
  cases visit with
  | entering c id =>
    cases taken
    split
    · exact ⟨List.forall_mem_cons.mpr ⟨known, inside.opened⟩, inside.patches⟩
    · exact inside
  | leaving c id =>
    simp only [Visitor.take, resolutionVisitor] at taken
    split at taken
    · cases taken
    · next planned fields =>
      have insidePlanned : m.PassInside planned :=
        of_foldlM_ok (fun field _ _ _ => confined.passInside_planField) inside fields
      cases taken
      split
      · exact ⟨fun id held => insidePlanned.opened id (List.mem_of_mem_tail held),
          insidePlanned.patches⟩
      · exact insidePlanned

theorem confined_foldl_applyPatch {patches : List Patch} (confined : m.Confined)
    (known : ∀ p ∈ patches, p.target.index < m.size) : (patches.foldl applyPatch m).Confined := by
  induction patches generalizing m with
  | nil => exact confined
  | cons p rest ih =>
    obtain ⟨isKnown, known⟩ := List.forall_mem_cons.mp known
    have step : (m.applyPatch p).Confined := confined_modifyBody confined fun b f fixes => by
      rw [Body.rename_setTarget, fixes p.target isKnown]
    have sameSize : (m.applyPatch p).size = m.size := size_modify m p.element _
    exact ih step (by rwa [sameSize])

theorem confined_foldl_markResolved (confined : m.Confined) (packages : List ElementId) :
    (packages.foldl markResolved m).Confined := by
  induction packages generalizing m with
  | nil => exact confined
  | cons package rest ih =>
    exact ih (confined_modifyBody confined fun b f _ => by cases b <;> rfl)

theorem confined_resolve {root : ElementId} {peers : List ElementId} {count : ResolutionCount}
    (confined : m.Confined) (resolved : m.resolve root peers = .ok (m', count)) : m'.Confined := by
  obtain ⟨-, pass, planned, rfl, -⟩ := resolve_ok_iff.mp resolved
  have inside : m.PassInside pass := by
    unfold planResolution at planned
    rw [walk_eq_foldlM (steady_resolutionVisitor peers)] at planned
    split at planned
    · cases planned
    · next taken =>
      cases planned
      exact of_foldlM_ok
        (fun visit met _ _ => confined.passInside_take (lt_size_of_mem_visitsWithin met))
        ⟨by simp, by simp⟩ taken
  have patched : (pass.patches.foldl applyPatch m).Confined :=
    confined_foldl_applyPatch confined inside.patches
  exact confined_foldl_markResolved patched (m.packageTree root)

theorem confined_resolveEach {all roots : List ElementId} {count : ResolutionCount}
    (confined : m.Confined) : (leftBy (resolveEach all roots (m, count))).Confined := by
  induction roots generalizing m count with
  | nil => exact confined
  | cons root rest ih =>
    unfold resolveEach
    split
    · exact confined
    · next resolved => exact ih (confined_resolve confined resolved)

theorem confined_resolveAll (confined : m.Confined) (roots : List ElementId) :
    (leftBy (m.resolveAll roots)).Confined := by
  unfold resolveAll
  refine confined_resolveEach ?_
  split
  · exact confined_addStandardPackage confined
  · exact confined

/-! ## All operations -/

/-- Models made by creations, additions, documents and passes of resolution. Documents and rounds of
passes leave a model also where they fail. -/
inductive Made : Model → Prop
  | empty : Made {}
  | created {m : Model} {kind : Kind} {name : Option String} : Made m → Made (m.create kind name)
  | added {m m' : Model} {slot : Slot} {owner member : ElementId} :
      Made m → m.add slot owner member = .ok m' → Made m'
  | detailed {m m' : Model} {note : ElementId} {key value : String} :
      Made m → m.addDetail note key value = .ok m' → Made m'
  | built {m : Model} {discriminator : String} {events : List Event} {fault : Option Error} :
      Made m → Made (leftBy (m.build discriminator events fault))
  | standard {m : Model} : Made m → Made m.addStandardPackage
  | resolved {m m' : Model} {root : ElementId} {peers : List ElementId} {count : ResolutionCount} :
      Made m → m.resolve root peers = .ok (m', count) → Made m'
  | resolvedAll {m : Model} {roots : List ElementId} :
      Made m → Made (leftBy (m.resolveAll roots))

theorem Made.confined (made : m.Made) : m.Confined := by
  induction made with
  | empty => exact confined_empty
  | created _ ih => exact confined_create ih _ _
  | added _ added ih => exact confined_add ih added
  | detailed _ added ih => exact confined_addDetail ih added
  | built _ ih => exact confined_build ih _ _ _
  | standard _ ih => exact confined_addStandardPackage ih
  | resolved _ resolved ih => exact confined_resolve ih resolved
  | resolvedAll _ ih => exact confined_resolveAll ih _

end Model

end Metamodel
