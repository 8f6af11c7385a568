import Mathlib.Data.List.Induction
import Metamodel.Document.Event

/-!
Well-nested events.

Events are balanced if every start has its end, and one tree if a single start spans all of them. A
start is enclosed by the last one before it that is still open.

Results:
1. `Start.Encloses.unique`: a start is enclosed by one other start at most.
2. `Unclosed.opening`, `Unclosed.closing`, `Unclosed.last`: what one more event does to the starts
   that are open.
-/

namespace Metamodel

/-- Every start has its end. -/
inductive Balanced : List Event → Prop
  | nil : Balanced []
  | element {tag : String} {attributes : OrderedMap String} {inner rest : List Event} :
      Balanced inner → Balanced rest →
      Balanced (.opening tag attributes :: (inner ++ .closing :: rest))

/-- The events are those of one element: its start, what is balanced, and its end. -/
def IsTree (events : List Event) : Prop :=
  ∃ tag attributes inner, Balanced inner ∧
    events = .opening tag attributes :: (inner ++ [.closing])

/-- A detail edits the annotation that it stands in; every other start creates an element. -/
def Event.creates : Event → Bool
  | .opening tag _ => tag ≠ "details"
  | .closing => false

/-- How many elements the events create. -/
def created (events : List Event) : Nat := events.countP Event.creates

/-- A start together with the events before it. -/
structure Start where
  before : List Event
  tag : String
  attributes : OrderedMap String

namespace Start

def event (s : Start) : Event := .opening s.tag s.attributes

/-- The start stands in these events. -/
def In (s : Start) (events : List Event) : Prop := ∃ after, events = s.before ++ s.event :: after

/-- What stands between the two starts is balanced. -/
def Encloses (outer s : Start) : Prop :=
  ∃ inner, Balanced inner ∧ s.before = outer.before ++ outer.event :: inner

end Start

/-- The starts that events of one tree leave open, innermost first. -/
inductive Unclosed : List Event → List Start → Prop
  | none : Unclosed [] []
  | within {s : Start} {starts : List Start} {inner : List Event} :
      Unclosed s.before starts → Balanced inner →
      Unclosed (s.before ++ s.event :: inner) (s :: starts)

/-! ## Balance -/

/-- Starts without their ends, counted with ends as negative ones. -/
def rise : List Event → Int
  | [] => 0
  | .opening _ _ :: rest => rise rest + 1
  | .closing :: rest => rise rest - 1

theorem rise_append (first second : List Event) :
    rise (first ++ second) = rise first + rise second := by
  induction first with
  | nil => simp [rise]
  | cons event rest ih => cases event <;> simp only [List.cons_append, rise, ih] <;> omega

theorem Balanced.append {first second : List Event} (balanced : Balanced first)
    (balanced' : Balanced second) : Balanced (first ++ second) := by
  induction balanced with
  | nil => exact balanced'
  | element inner _ _ ih =>
    rw [List.cons_append, List.append_assoc, List.cons_append]
    exact .element inner ih

theorem Balanced.rise_eq {events : List Event} (balanced : Balanced events) : rise events = 0 := by
  induction balanced with
  | nil => rfl
  | element _ _ ihInner ihRest =>
    rw [rise, rise_append, rise, ihInner, ihRest]
    omega

theorem IsTree.rise_eq {events : List Event} (isTree : IsTree events) : rise events = 0 := by
  obtain ⟨tag, attributes, inner, balanced, rfl⟩ := isTree
  exact (Balanced.element balanced .nil).rise_eq

/-- What comes last in balanced events holds no more starts than ends. -/
theorem Balanced.rise_suffix {events first second : List Event} (balanced : Balanced events)
    (split : events = first ++ second) : rise second ≤ 0 := by
  induction balanced generalizing first second with
  | nil =>
    obtain ⟨rfl, rfl⟩ := List.append_eq_nil_iff.mp split.symm
    exact Int.le_refl 0
  | @element tag attributes inner rest balancedInner balancedRest ihInner ihRest =>
    rcases List.cons_eq_append_iff.mp split with ⟨rfl, rfl⟩ | ⟨first, rfl, parts⟩
    · exact Int.le_of_eq (Balanced.element balancedInner balancedRest).rise_eq
    · rcases List.append_eq_append_iff.mp parts with ⟨middle, rfl, after⟩ | ⟨middle, within, rfl⟩
      · rcases List.cons_eq_append_iff.mp after with ⟨rfl, rfl⟩ | ⟨middle, rfl, beyond⟩
        · rw [rise, balancedRest.rise_eq]
          omega
        · exact ihRest beyond
      · have below := ihInner within
        rw [rise_append, rise, balancedRest.rise_eq]
        omega

/-! ## Starts -/

theorem created_append (first second : List Event) :
    created (first ++ second) = created first + created second := List.countP_append

theorem created_singleton (event : Event) : created [event] = if event.creates then 1 else 0 := by
  simp [created, List.countP_cons]

namespace Start

variable {s outer outer' : Start}

/-- Of two starts that enclose a third one, neither comes first. -/
theorem Encloses.not_prefix (encloses : outer.Encloses s) (encloses' : outer'.Encloses s)
    {between : List Event} (split : outer'.before = outer.before ++ outer.event :: between) :
    False := by
  obtain ⟨inner, balanced, upTo⟩ := encloses
  obtain ⟨inner', balanced', upTo'⟩ := encloses'
  have parts : inner = between ++ outer'.event :: inner' := by
    rw [upTo, split, List.append_assoc, List.cons_append] at upTo'
    simpa using upTo'
  have below := balanced.rise_suffix parts
  rw [event, rise, balanced'.rise_eq] at below
  omega

/-- Of two starts of the same events, one is the other or comes after it. -/
theorem eq_or_between {middle inner inner' : List Event}
    (longer : outer'.before = outer.before ++ middle)
    (split : outer.event :: inner = middle ++ outer'.event :: inner') :
    outer = outer' ∨ ∃ between, outer'.before = outer.before ++ outer.event :: between := by
  rcases List.cons_eq_append_iff.mp split with ⟨rfl, same⟩ | ⟨between, rfl, -⟩
  · obtain ⟨before, tag, attributes⟩ := outer
    obtain ⟨before', tag', attributes'⟩ := outer'
    simp_all [event]
  · exact .inr ⟨between, longer⟩

/-- Two starts of the same events are one, or one of them comes after the other. -/
theorem eq_or_later {inner inner' : List Event}
    (split : outer.before ++ outer.event :: inner = outer'.before ++ outer'.event :: inner') :
    outer = outer' ∨ (∃ between, outer'.before = outer.before ++ outer.event :: between) ∨
      ∃ between, outer.before = outer'.before ++ outer'.event :: between := by
  rcases List.append_eq_append_iff.mp split with ⟨middle, longer, rest⟩ | ⟨middle, longer, rest⟩
  · exact (eq_or_between longer rest).imp_right .inl
  · exact (eq_or_between longer rest).imp Eq.symm .inr

theorem Encloses.unique (encloses : outer.Encloses s) (encloses' : outer'.Encloses s) :
    outer = outer' := by
  have ⟨inner, _, upTo⟩ := encloses
  have ⟨inner', _, upTo'⟩ := encloses'
  rcases eq_or_later (upTo.symm.trans upTo') with same | ⟨between, later⟩ | ⟨between, later⟩
  · exact same
  · exact (encloses.not_prefix encloses' later).elim
  · exact (encloses'.not_prefix encloses later).elim

theorem in_append_singleton {events : List Event} {event : Event} :
    s.In (events ++ [event]) ↔ s.In events ∨ s.before = events ∧ s.event = event := by
  constructor
  · rintro ⟨after, split⟩
    rcases List.eq_nil_or_concat after with rfl | ⟨rest, last, rfl⟩
    · obtain ⟨same, last⟩ := List.append_inj' split rfl
      exact .inr ⟨same.symm, (List.cons.inj last).1.symm⟩
    · rw [List.concat_eq_append, ← List.cons_append, ← List.append_assoc] at split
      exact .inl ⟨rest, (List.append_inj' split rfl).1⟩
  · rintro (⟨after, rfl⟩ | ⟨rfl, rfl⟩)
    · exact ⟨after ++ [event], by simp⟩
    · exact ⟨[], rfl⟩

theorem Encloses.inside {events : List Event} (encloses : outer.Encloses s) (inside : s.In events) :
    outer.In events := by
  obtain ⟨inner, -, upTo⟩ := encloses
  obtain ⟨after, rfl⟩ := inside
  exact ⟨inner ++ s.event :: after, by rw [upTo, List.append_assoc, List.cons_append]⟩

theorem In.ne_nil {events : List Event} (inside : s.In events) : events ≠ [] := by
  obtain ⟨after, rfl⟩ := inside
  exact List.append_ne_nil_of_right_ne_nil _ (List.cons_ne_nil _ _)

theorem In.created_lt {events : List Event} (inside : s.In events) (creates : s.event.creates) :
    created s.before < created events := by
  obtain ⟨after, rfl⟩ := inside
  have here : created (s.event :: after) = created after + 1 := by
    simp [created, creates]
  rw [created_append, here]
  omega

/-- What encloses a start creates its element before. -/
theorem Encloses.created_lt (encloses : outer.Encloses s) (creates : outer.event.creates) :
    created outer.before < created s.before := by
  obtain ⟨inner, -, upTo⟩ := encloses
  exact In.created_lt ⟨inner, upTo⟩ creates

/-- Starts that create elements are told apart by how many of them come before. -/
theorem eq_of_created_eq {events : List Event} (inside : s.In events) (creates : s.event.creates)
    (inside' : outer.In events) (creates' : outer.event.creates)
    (same : created s.before = created outer.before) : s = outer := by
  obtain ⟨after, split⟩ := inside
  obtain ⟨after', split'⟩ := inside'
  rcases eq_or_later (split.symm.trans split') with equal | ⟨between, later⟩ | ⟨between, later⟩
  · exact equal
  · have more := In.created_lt ⟨between, later⟩ creates
    omega
  · have more := In.created_lt ⟨between, later⟩ creates'
    omega

/-- The starts that create elements are numbered without a gap. -/
theorem exists_created_eq {events : List Event} {count : Nat} (less : count < created events) :
    ∃ s : Start, s.In events ∧ s.event.creates ∧ created s.before = count := by
  induction events using List.reverseRecOn with
  | nil => cases less
  | append_singleton events event ih =>
    -- The number is one of an earlier start, or the next one, and then the last event has it.
    by_cases before : count < created events
    · obtain ⟨s, inside, creates, counted⟩ := ih before
      exact ⟨s, in_append_singleton.mpr (.inl inside), creates, counted⟩
    · rw [created_append, created_singleton] at less
      cases event with
      | closing => exact absurd less before
      | opening tag attributes =>
        have creates : (Event.opening tag attributes).creates := by
          by_contra none
          rw [if_neg none] at less
          exact before less
        rw [if_pos creates] at less
        have counted : created events = count := by omega
        exact ⟨⟨events, tag, attributes⟩, in_append_singleton.mpr (.inr ⟨rfl, rfl⟩), creates,
          counted⟩

end Start

/-! ## Open starts -/

namespace Unclosed

variable {events : List Event} {s : Start} {starts : List Start}

theorem eq_nil (unclosed : Unclosed events []) : events = [] := by
  cases unclosed
  rfl

theorem encloses {tag : String} {attributes : OrderedMap String}
    (unclosed : Unclosed events (s :: starts)) : s.Encloses ⟨events, tag, attributes⟩ := by
  cases unclosed with
  | within _ balanced => exact ⟨_, balanced, rfl⟩

theorem outermost (unclosed : Unclosed events [s]) : s.before = [] := by
  cases unclosed with
  | within before _ => exact before.eq_nil

theorem inside (unclosed : Unclosed events (s :: starts)) : s.In events := by
  cases unclosed with
  | within _ _ => exact ⟨_, rfl⟩

theorem opening (unclosed : Unclosed events starts) (tag : String)
    (attributes : OrderedMap String) :
    Unclosed (events ++ [.opening tag attributes]) (⟨events, tag, attributes⟩ :: starts) :=
  .within (s := ⟨events, tag, attributes⟩) unclosed .nil

/-- Balanced events leave open what was open. -/
theorem append {more : List Event} (unclosed : Unclosed events (s :: starts))
    (balanced : Balanced more) : Unclosed (events ++ more) (s :: starts) := by
  cases unclosed with
  | within before inner =>
    rw [List.append_assoc, List.cons_append]
    exact .within before (inner.append balanced)

theorem closing {outer : Start} (unclosed : Unclosed events (s :: outer :: starts)) :
    Unclosed (events ++ [.closing]) (outer :: starts) := by
  cases unclosed with
  | within before inner =>
    rw [List.append_assoc, List.cons_append]
    exact before.append (.element inner .nil)

/-- The end of the outermost start makes one tree. -/
theorem last (unclosed : Unclosed events [s]) : IsTree (events ++ [.closing]) := by
  cases unclosed with
  | within before inner =>
    rw [before.eq_nil]
    exact ⟨s.tag, s.attributes, _, inner, rfl⟩

end Unclosed

end Metamodel
