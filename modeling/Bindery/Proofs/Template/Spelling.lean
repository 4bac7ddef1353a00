import Bindery.Proofs.Template.Markers
import Bindery.Template.Directive
import Mathlib.Data.List.TakeWhile
import Mathlib.Data.Set.Subsingleton

namespace Bindery

/-!
# How directives are spelt

The attributes that are read as directives are those of a small grammar, and each is spelt in one
way only.

* `marked` — what may follow a mark, with the mark; a text is cut at the first mark in one way.
* `Directive.Spelling` — what follows the lead of a directive's attribute, in parts.
* `Directive.Spelling.parse_eq` — an attribute that is spelt out of such parts is read as them.
* `Directive.parse_cases` — how any other attribute with the lead is refused.
* `Directive.parse_spelt` — the attributes that are read, those that are left alone, and those that
  are refused.
-/

/-! ### Cutting at a mark -/

/-- What stands behind a mark, with the mark; nothing if there is no mark. -/
def marked (mark : Char) : Option (List Char) → List Char
  | none => []
  | some rest => mark :: rest

section marked

variable {mark : Char} {before cs : List Char} {tail? tail'? : Option (List Char)}

/-- The mark tells whether there is a tail, and which. -/
theorem marked_injective (h : marked mark tail? = marked mark tail'?) : tail? = tail'? := by
  cases tail? <;> cases tail'? <;> simp_all [marked]

/-- Nothing but the mark can come first. -/
theorem eq_of_head?_marked {c : Char} (h : c ∈ (marked mark tail?).head?) : c = mark := by
  cases tail? with
  | none => cases h
  | some rest => exact (Option.some.inj h).symm

/-- What stands before the first mark is taken up to it. -/
theorem takeWhile_marked (h : mark ∉ before) :
    (before ++ marked mark tail?).takeWhile (· != mark) = before := by
  rw [List.takeWhile_append_of_pos fun c hc => by simpa using ne_of_mem_of_not_mem hc h]
  cases tail? <;> simp [marked]

/-- The mark and what follows it are left. -/
theorem dropWhile_marked (h : mark ∉ before) :
    (before ++ marked mark tail?).dropWhile (· != mark) = marked mark tail? := by
  rw [List.dropWhile_append_of_pos fun c hc => by simpa using ne_of_mem_of_not_mem hc h]
  cases tail? <;> simp [marked]

/-- There is no mark before the first one. -/
theorem notMem_takeWhile (mark : Char) (cs : List Char) : mark ∉ cs.takeWhile (· != mark) :=
  fun h => by simpa using List.mem_takeWhile_imp h

/-- Every text is cut at the first mark. -/
theorem exists_marked (mark : Char) (cs : List Char) :
    ∃ tail?, cs = cs.takeWhile (· != mark) ++ marked mark tail? := by
  cases hrest : cs.dropWhile (· != mark) with
  | nil =>
    refine ⟨none, ?_⟩
    rw [marked, ← hrest, List.takeWhile_append_dropWhile]
  | cons c rest =>
    have head := List.head?_dropWhile_not (· != mark) cs
    rw [hrest] at head
    have first : c = mark := by simpa using head
    subst first
    exact ⟨some rest, by rw [marked, ← hrest, List.takeWhile_append_dropWhile]⟩

end marked

namespace Directive

variable {element attr expression lead : String}

/-! ### The grammar -/

/-- How an attribute is read, in the parts that the first hyphen and the first colon before it cut
its rest into. -/
theorem parse_parts {name : List Char} {event? ignored? : Option (List Char)}
    (written : attr.toList = lead.toList ++ (name ++ marked ':' event? ++ marked '-' ignored?))
    (colonless : ':' ∉ name) (hyphenless : '-' ∉ name ++ marked ':' event?) :
    parse element attr expression lead =
      if name = [] then .error (.malformedDirective attr)
      else match DirectiveKind.ofName? (String.ofList name) with
        | none => .error (.unknownDirective attr element)
        | some kind =>
          if kind.needsEvent && (eventOf (name ++ marked ':' event?)).isNone then
            .error (.missingEventName attr)
          else .ok (some ⟨kind, attr, expression, eventOf (name ++ marked ':' event?)⟩) := by
  rw [parse, afterLead?_eq_some_iff.2 written]
  simp only [takeWhile_marked hyphenless, takeWhile_marked colonless]
  exact if_congr List.isEmpty_iff rfl rfl

/-- What follows the lead of a directive's attribute: a kind, what stands behind a colon if there is
one, and what stands behind a hyphen if there is one. -/
structure Spelling where
  kind : DirectiveKind
  event? : Option (List Char)
  ignored? : Option (List Char)

namespace Spelling

/-- The kind and the event. -/
def base (s : Spelling) : List Char := s.kind.name.toList ++ marked ':' s.event?

/-- The parts written out. -/
def text (s : Spelling) : List Char := s.base ++ marked '-' s.ignored?

/-- The event of the directive; an empty one is none. -/
def event (s : Spelling) : Option String :=
  s.event?.bind fun event => if event = [] then none else some (String.ofList event)

/-- No hyphen belongs to the event, and a directive that waits for events names one. -/
structure IsProper (s : Spelling) : Prop where
  hyphenless : ∀ event ∈ s.event?, '-' ∉ event
  named : s.kind = .on → ∃ event ∈ s.event?, event ≠ []

/-- An attribute is the lead with these parts after it. -/
def Spells (s : Spelling) (lead attr : String) : Prop :=
  s.IsProper ∧ attr.toList = lead.toList ++ s.text

variable {s s' : Spelling}

/-- The names of directives have no colon in them, so the first one ends the name. -/
theorem colon_notMem_name (kind : DirectiveKind) : ':' ∉ kind.name.toList := by
  cases kind <;> decide

/-- Before the modifiers there is no hyphen, if the event has none. -/
theorem hyphen_notMem_base (h : ∀ event ∈ s.event?, '-' ∉ event) : '-' ∉ s.base := by
  have name : '-' ∉ s.kind.name.toList := by cases s.kind <;> decide
  rw [base, List.mem_append, not_or]
  refine ⟨name, ?_⟩
  cases hevent : s.event? with
  | none => exact List.not_mem_nil
  | some event => simpa [marked] using h event hevent

/-- The event of the directive is what stands behind the colon. -/
theorem eventOf_base (s : Spelling) : eventOf s.base = s.event := by
  rw [eventOf, base, dropWhile_marked (colon_notMem_name s.kind), event]
  cases s.event? with
  | none => rfl
  | some event => cases event <;> rfl

/-- A directive lacks no event exactly if its parts are proper. -/
theorem lacksEvent_iff (h : ∀ event ∈ s.event?, '-' ∉ event) :
    (s.kind.needsEvent && s.event.isNone) = false ↔ s.IsProper := by
  constructor
  · intro needs
    refine ⟨h, fun on => ?_⟩
    rw [on] at needs
    cases hevent : s.event? with
    | none => simp [event, hevent, DirectiveKind.needsEvent] at needs
    | some event =>
      refine ⟨event, rfl, fun empty => ?_⟩
      simp [Spelling.event, hevent, empty, DirectiveKind.needsEvent] at needs
  · intro proper
    cases hkind : s.kind with
    | on =>
      obtain ⟨event, hevent, nonempty⟩ := proper.named hkind
      simp [Spelling.event, Option.mem_def.1 hevent, nonempty]
    | _ => rfl

/-- **One way to spell.** The first hyphen and then the first colon tell the parts. -/
theorem eq_of_spells (h : s.Spells lead attr) (h' : s'.Spells lead attr) : s = s' := by
  have texts : s.text = s'.text := List.append_cancel_left (h.2.symm.trans h'.2)
  have bases : s.base = s'.base := by
    rw [← takeWhile_marked (hyphen_notMem_base h.1.hyphenless), ← text, texts, text,
      takeWhile_marked (hyphen_notMem_base h'.1.hyphenless)]
  have names : s.kind.name.toList = s'.kind.name.toList := by
    rw [← takeWhile_marked (colon_notMem_name s.kind), ← base, bases, base,
      takeWhile_marked (colon_notMem_name s'.kind)]
  have kinds : s.kind = s'.kind := by
    rw [← Option.some_inj, ← DirectiveKind.ofName?_name, String.toList_inj.1 names,
      DirectiveKind.ofName?_name]
  obtain ⟨kind, event?, ignored?⟩ := s
  obtain ⟨kind', event'?, ignored'?⟩ := s'
  simp only at kinds
  subst kinds
  have events : event? = event'? := marked_injective (List.append_cancel_left bases)
  subst events
  have rests : ignored? = ignored'? := marked_injective (List.append_cancel_left texts)
  rw [rests]

/-- **What is spelt is read.** -/
theorem parse_eq (h : s.Spells lead attr) : parse element attr expression lead =
    .ok (some ⟨s.kind, attr, expression, s.event⟩) := by
  obtain ⟨proper, written⟩ := h
  have named : s.kind.name.toList ≠ [] := by cases s.kind <;> decide
  rw [parse_parts written (colon_notMem_name s.kind) (hyphen_notMem_base proper.hyphenless),
    ← base, eventOf_base, if_neg named, String.ofList_toList, DirectiveKind.ofName?_name]
  simp only [(lacksEvent_iff proper.hyphenless).2 proper, Bool.false_eq_true, if_false]

end Spelling

/-! ### Refusals -/

/-- Why an attribute is refused, by what stands before the first colon or hyphen. -/
def refusal (element attr : String) (name : List Char) : TemplateError :=
  if name = [] then .malformedDirective attr
  else if name ∈ DirectiveKind.all.map (·.name.toList) then .missingEventName attr
  else .unknownDirective attr element

/-- A text is cut at the first colon or hyphen. -/
def CutsName (name after : List Char) : Prop :=
  (∀ c ∈ name, c ≠ ':' ∧ c ≠ '-') ∧ ∀ c ∈ after.head?, c = ':' ∨ c = '-'

/-- What stands before the first colon or hyphen is told by the text. -/
theorem CutsName.takeWhile {name after : List Char} (h : CutsName name after) :
    (name ++ after).takeWhile (fun c => c != ':' && c != '-') = name := by
  rw [List.takeWhile_append_of_pos fun c hc => by simpa using h.1 c hc]
  cases after with
  | nil => simp
  | cons c rest =>
    obtain rfl | rfl := h.2 c rfl
    · simp
    · simp

/-- The kind that a name has is called so. -/
theorem ofName?_eq_some {name : String} {kind : DirectiveKind}
    (h : DirectiveKind.ofName? name = some kind) : kind.name = name := by
  simpa using List.find?_some h

/-- A name without a kind is none of theirs. -/
theorem ofName?_eq_none {name : List Char} (h : DirectiveKind.ofName? (String.ofList name) = none) :
    name ∉ DirectiveKind.all.map (·.name.toList) := by
  rw [List.mem_map]
  rintro ⟨kind, -, rfl⟩
  rw [String.ofList_toList, DirectiveKind.ofName?_name] at h
  cases h

/-- **Read or refused.** An attribute with the lead is spelt as a directive, or it is refused. -/
theorem parse_cases (element expression : String) {rest : List Char}
    (written : attr.toList = lead.toList ++ rest) :
    (∃ s : Spelling, s.Spells lead attr) ∨ ∃ name after, rest = name ++ after ∧
      CutsName name after ∧
        parse element attr expression lead = .error (refusal element attr name) := by
  -- the text is cut at the first hyphen, and what is before it at the first colon
  obtain ⟨ignored?, hrest⟩ := exists_marked '-' rest
  obtain ⟨event?, hbase⟩ := exists_marked ':' (rest.takeWhile (· != '-'))
  have hyphenless := notMem_takeWhile '-' rest
  have colonless := notMem_takeWhile ':' (rest.takeWhile (· != '-'))
  generalize rest.takeWhile (· != '-') = base at hrest hbase hyphenless colonless
  generalize base.takeWhile (· != ':') = name at hbase colonless
  subst hbase hrest
  rw [parse_parts written colonless hyphenless]
  rw [List.mem_append, not_or] at hyphenless
  have cuts : CutsName name (marked ':' event? ++ marked '-' ignored?) := by
    refine ⟨fun c hc => ⟨ne_of_mem_of_not_mem hc colonless,
      ne_of_mem_of_not_mem hc hyphenless.1⟩, fun c hc => ?_⟩
    rw [List.head?_append, Option.mem_def, Option.or_eq_some_iff] at hc
    exact hc.imp eq_of_head?_marked fun hc => eq_of_head?_marked hc.2
  by_cases nameless : name = []
  · exact .inr ⟨name, _, List.append_assoc .., cuts, by simp [refusal, nameless]⟩
  · cases hkind : DirectiveKind.ofName? (String.ofList name) with
    | none =>
      exact .inr ⟨name, _, List.append_assoc .., cuts,
        by simp [refusal, nameless, ofName?_eq_none hkind]⟩
    | some kind =>
      obtain rfl : name = kind.name.toList := by rw [ofName?_eq_some hkind, String.toList_ofList]
      have events : ∀ event ∈ event?, '-' ∉ event := by
        rintro event rfl hyphen
        exact hyphenless.2 (List.mem_cons_of_mem _ hyphen)
      have eventOf_eq := Spelling.eventOf_base ⟨kind, event?, ignored?⟩
      have lacks := Spelling.lacksEvent_iff (s := ⟨kind, event?, ignored?⟩) events
      simp only [Spelling.base] at eventOf_eq lacks
      rw [← eventOf_eq] at lacks
      by_cases eventless : (kind.needsEvent &&
          (eventOf (kind.name.toList ++ marked ':' event?)).isNone) = true
      · have known : kind.name.toList ∈ DirectiveKind.all.map (·.name.toList) := by
          cases kind <;> decide
        refine .inr ⟨_, _, List.append_assoc .., cuts, ?_⟩
        simp only [refusal, nameless, eventless, known, if_true, if_false]
      · exact .inl ⟨⟨kind, event?, ignored?⟩, lacks.1 (Bool.not_eq_true _ ▸ eventless), written⟩

/-- **The grammar of directives.** An attribute is left alone exactly if it does not start with the
lead, and read as a directive exactly if it is spelt as one: it is the lead, the name of a kind, a
colon and an event without hyphens or neither, and a hyphen and anything or neither, where a
directive that waits for events has an event that is not empty.  There is one way to spell it, which
tells the kind and the event of the directive; an empty event is none.  Any other attribute is
refused for what stands before the first colon or hyphen after the lead: nothing, no name of a kind,
or the name of a kind, which then lacks its event. -/
theorem parse_spelt (element attr expression lead : String) :
    (parse element attr expression lead = .ok none ↔ ¬ lead.toList <+: attr.toList) ∧
      (∀ d, parse element attr expression lead = .ok (some d) ↔ ∃ s : Spelling,
        s.Spells lead attr ∧ d = ⟨s.kind, attr, expression, s.event⟩) ∧
      {s : Spelling | s.Spells lead attr}.Subsingleton ∧
      ∀ e, parse element attr expression lead = .error e ↔
        (¬ ∃ s : Spelling, s.Spells lead attr) ∧ ∃ name after,
          attr.toList = lead.toList ++ (name ++ after) ∧ CutsName name after ∧
            e = refusal element attr name := by
  cases hlead : afterLead? lead.toList attr.toList with
  | none =>
    -- nothing is spelt without the lead
    have parsed : parse element attr expression lead = .ok none := by rw [parse, hlead]
    have other := afterLead?_eq_none_iff.1 hlead
    have unspelt (s : Spelling) : ¬ s.Spells lead attr := fun h => other ⟨_, h.2.symm⟩
    simp only [parsed, other, not_false_eq_true, true_and]
    refine ⟨fun d => ?_, fun s h => absurd h (unspelt s), fun e => ?_⟩
    · simp [unspelt]
    · simp only [reduceCtorEq, false_iff, not_and, not_exists]
      exact fun _ name after written => absurd ⟨_, written.symm⟩ other
  | some rest =>
    have written := afterLead?_eq_some_iff.1 hlead
    have leads : lead.toList <+: attr.toList := ⟨rest, written.symm⟩
    simp only [leads, not_true_eq_false, iff_false]
    obtain ⟨s, h⟩ | ⟨name, after, rfl, cuts, refused⟩ :=
      parse_cases element expression written
    · simp only [Spelling.parse_eq h]
      refine ⟨nofun, fun d => ⟨fun read => ?_, ?_⟩, fun s h s' h' => Spelling.eq_of_spells h h',
        fun e => ⟨nofun, fun unspelt => absurd ⟨s, h⟩ unspelt.1⟩⟩
      · cases read
        exact ⟨s, h, rfl⟩
      · rintro ⟨s', h', rfl⟩
        rw [Spelling.eq_of_spells h h']
    · -- what is refused is not spelt, since that would be read
      have unspelt (s : Spelling) : ¬ s.Spells lead attr := fun h => by
        rw [Spelling.parse_eq h] at refused
        cases refused
      simp only [refused]
      refine ⟨nofun, fun d => ⟨nofun, fun ⟨s, h, _⟩ => absurd h (unspelt s)⟩,
        fun s h => absurd h (unspelt s), fun e => ⟨fun same => ?_, ?_⟩⟩
      · cases same
        exact ⟨fun ⟨s, h⟩ => unspelt s h, name, after, written, cuts, rfl⟩
      · rintro ⟨-, name', after', written', cuts', rfl⟩
        have texts := List.append_cancel_left (written.symm.trans written')
        rw [← cuts.takeWhile, texts, cuts'.takeWhile]

end Directive

end Bindery
