import Bindery.Proofs.Json.Displayed
import Bindery.Proofs.Store.Skipped
import Bindery.Proofs.ViewModel.InStep

namespace Bindery

/-!
# Skipped assignments on a page

An assignment that is skipped leaves a page as it is.  That goes unnoticed if the page would be the
same with the scalar that was not stored, and so it is where scalars are shown as texts of their
own, unless a zero loses or gains its sign.

* `Display.result_congr` — what is displayed in stores that resemble each other.
* `ViewModel.Presents` — the page of the data of a store; `ViewModel.RunsInStep` — pages that are
  always that of the present data; `ViewModel.RunsInStep.presents` — and of data that resemble them.
* `World.displays_of_skips` — what is on display after an assignment was skipped.
-/

variable {υ : Type}

namespace Display

variable {e : Display} {marks : Delimiters} {s s' : Store}

/-- **What is displayed** is the same in stores that differ in texts of their own only. -/
theorem result_congr (h : s.Resembles s') (parses : e.Parses marks)
    (bare : ∀ path ∈ e.paths marks, s.ShowsBare s' path) :
    e.result marks s' = e.result marks s := by
  obtain ⟨part, path, hparse, hpath⟩ | ⟨part, hpaths⟩ := parses.cases
  · rw [hpath, List.forall_mem_singleton] at bare
    rw [result_of_value part, result_of_value part]
    refine h.get fun found hfound => ?_
    cases hparse.symm.trans hfound
    exact bare
  · rw [result_of_text part, result_of_text part]
    exact Delimiters.render_congr hpaths fun path hpath => h.shownPath (bare path hpath)

/-- A display of scalars shows texts of their own only. -/
theorem OnScalars.showsBare (h : e.OnScalars marks s) (plain : s.computed = []) (s' : Store) :
    ∀ path ∈ e.paths marks, s.ShowsBare s' path := by
  intro path hpath
  obtain ⟨value, hread⟩ := h.read plain path hpath
  rw [Store.ShowsBare, plain]
  intro id composite
  rw [Store.read_plain plain] at hread
  cases composite.symm.trans hread

end Display

namespace ViewModel

variable {vm : ViewModel υ} {tree : Tree (Mark Listener)} {data : Json} {page : Page υ}
  {w : World (Page υ)}

/-- The element has the expansion of the template as its content, with the data of a store. -/
def Presents (vm : ViewModel υ) (tree : Tree (Mark Listener)) (page : Page υ)
    (f : Forest Listener) (s : Store) : Prop :=
  ∃ children, f.node? tree.id = some (.node tree.label tree.kind children) ∧
    Tree.mapAll (Mark.origin page.document.next) children =
      (vm.templateOn s).expandAll ((vm.templateOn s).shownAt s injectionLimit)
        (Tree.mapAll (Mark.origin page.document.next) tree.children)

/-- A page that stays in step with its data: a view model was mounted on a template with texts, text
directives and directives for form values only, which show scalars, and moves were made. -/
structure RunsInStep (vm : ViewModel υ) (tree : Tree (Mark Listener)) (data : Json) (page : Page υ)
    (w : World (Page υ)) : Prop where
  host : vm.Hosts (World.new (.ofJson data) page) tree
  plain : ∀ spot ∈ vm.spots tree data, spot.IsPlain
  quiet : ∀ spot ∈ vm.spots tree data, ∀ listener ∈ spot.entry.listeners, listener.1 ≠ "input"
  scalars : ∀ e ∈ Spot.displaysAll (vm.spots tree data),
    e.OnScalars vm.settings.delimiters (.ofJson data)
  played : ∃ ids w₀, vm.mountOn .builtin (World.new (.ofJson data) page) = some (.ok ids, w₀) ∧
    vm.Played (vm.spots tree data) w₀ w

/-- Such a page is that of its data, and of any that resemble them. -/
theorem RunsInStep.presents (h : vm.RunsInStep tree data page w) {s : Store}
    (alike : w.store.Resembles s) : vm.Presents tree page w.document s := by
  obtain ⟨ids, w₀, mounted, played⟩ := h.played
  obtain ⟨start, frame⟩ := mounted_inStep h.host mounted h.plain h.scalars
  have now := played.inStep start h.quiet
  obtain ⟨shown, exhibits, hshown⟩ := now.shows
  refine (expansion_of_exhibits h.host frame now.proper exhibits fun e he => ?_).1
  have bare := (now.serves.scalars e he).showsBare now.serves.attentive.plain s
  rw [hshown e he, Display.text, Display.text,
    Display.result_congr alike (now.serves.parses e he) bare]

end ViewModel

/-- One in the floating-point format. -/
def Binary64.one : Binary64 := ⟨false, Nat.pow 2 1074, by decide +kernel, by decide +kernel⟩

/-- A computed member that puts a number in an array. -/
def Derivation.wrapping : Derivation := (get "n").bind fun value => pure (.array [value])

namespace World

open ViewModel

/-- What is skipped does nothing. -/
theorem set_of_skips {σ : Type} {w : World σ} {expr : String} {value : Json}
    (h : w.store.Skips expr value) : World.set expr value w = some (.ok (), w) := by
  obtain ⟨path, -, -, -, hparse, hassign, -⟩ := h.held
  simp only [World.set, hparse, World.write, World.assign, hassign]

/-- **A skipped assignment leaves no stale text.** Scalars that are strictly equal, and not by
rounding, have the same text unless just one of them is the zero with a sign.  An assignment is
skipped for a scalar in the place of one that is strictly equal, and leaves everything as it is.  If
the two have the same text, every display shows what it would show with the new one in place of the
old one, unless it shows a composite that the property is inside or a computed member that goes
through it, which makes a difference only if the two are not the same.  And a page that stays in
step with its data is the one with the new scalar as well. -/
theorem displays_of_skips :
    (∀ a b : Scalar, a.InRange → b.InRange → a.strictEq b = true →
      ¬ a.RoundsTo b → ¬ b.RoundsTo a →
        (a.display = b.display ↔ a.isMinusZero = b.isMinusZero)) ∧
    ∀ (w : World (Page υ)) (expr : String) (value : Json), w.store.Skips expr value →
      World.set expr value w = some (.ok (), w) ∧
      ∃ property old new, value = .scalar new ∧ w.store.HoldsScalar expr property old ∧
        old.strictEq new = true ∧
        (old = new → ∀ path, w.store.ShowsBare (w.store.put property new) path) ∧
        (old.display = new.display →
          (∀ (marks : Delimiters) (e : Display), e.Parses marks →
            (∀ path ∈ e.paths marks, w.store.ShowsBare (w.store.put property new) path) →
            e.result marks (w.store.put property new) = e.result marks w.store) ∧
          ∀ (vm : ViewModel υ) (tree : Tree (Mark Listener)) (data : Json) (page : Page υ),
            vm.RunsInStep tree data page w →
            vm.Presents tree page w.document (w.store.put property new)) := by
  refine ⟨fun a b ha hb same => Scalar.display_eq_iff ha hb same, fun w expr value skips => ?_⟩
  obtain ⟨path, property, old, new, -, -, rfl, held, same⟩ := skips.held
  refine ⟨set_of_skips skips, property, old, new, rfl, held, same, ?_, fun text => ?_⟩
  · rintro rfl path
    exact Store.showsBare_of_agreeOn (Store.agreeOn_put_self held.holds) path
  · have alike := Store.resembles_put held.holds text
    exact ⟨fun marks e parses bare => Display.result_congr alike parses bare,
      fun vm tree data page inStep => inStep.presents alike⟩

/-- A one of the other kind is skipped, and the page is that with either. -/
theorem displays_of_skips_form :
    let integer : Scalar := .number (.integer 1)
    let float : Scalar := .number (.float .one)
    let count : Display := ⟨⟨2⟩, .child, "\x7b\x7bn\x7d\x7d"⟩
    ∃ ids w₀, onPage.mountOn .builtin (pageOf form 5 formData) = some (.ok ids, w₀) ∧
      w₀.store.HoldsScalar "n" ⟨0⟩ integer ∧ integer ≠ float ∧
      World.set "n" (.scalar float) w₀ = some (.ok (), w₀) ∧
      count.result onPage.settings.delimiters (w₀.store.put ⟨0⟩ float) =
        count.result onPage.settings.delimiters w₀.store ∧
      onPage.Presents form ⟨⟨[form], 5⟩, true, ()⟩ w₀.document (w₀.store.put ⟨0⟩ float) := by
  intro integer float count
  have outcome : (onPage.mountOn .builtin (pageOf form 5 formData)).map (fun mounted =>
      (mounted.1, decide (mounted.2.store.Skips "n" (.scalar float)),
        (mounted.2.store.propertyAt "n").toOption,
        mounted.2.store.arena.contents[(⟨0⟩ : PropertyId)]?)) =
      some (.ok [⟨0⟩, ⟨1⟩, ⟨2⟩, ⟨3⟩], true, some ⟨0⟩, some (.scalar integer)) := by
    decide +kernel
  obtain ⟨⟨result, w₀⟩, mounted, hresult⟩ := Option.map_eq_some_iff.1 outcome
  simp only [Prod.mk.injEq, decide_eq_true_eq] at hresult
  obtain ⟨rfl, skips, named, holds⟩ := hresult
  have inStep : onPage.RunsInStep form formData ⟨⟨[form], 5⟩, true, ()⟩ w₀ :=
    { host := hosts_new rfl formData (by decide) (by decide) (by decide)
      plain := by decide +kernel
      quiet := by decide +kernel
      scalars := by decide +kernel
      played := ⟨_, w₀, mounted, .start⟩ }
  obtain ⟨⟨-, serves, -⟩, -⟩ := mounted_inStep inStep.host mounted inStep.plain inStep.scalars
  have listed : count ∈ Spot.displaysAll (onPage.spots form formData) := by decide +kernel
  obtain ⟨texts, skipped⟩ := displays_of_skips (υ := Unit)
  have same : integer.display = float.display := by
    refine (texts integer float (.inl (by decide)) trivial (by decide +kernel) ?_ id).2 rfl
    exact fun rounds => rounds.1 .one (Binary64.value_eq_int_iff.2 (by decide +kernel))
  obtain ⟨nothing, property, old, new, hnew, held, -, -, shown⟩ := skipped w₀ "n" _ skips
  obtain rfl : float = new := Json.scalar.inj hnew
  obtain rfl : property = ⟨0⟩ := by simpa [held.named, Except.toOption] using named
  obtain rfl : old = integer := by simpa [held.holds] using holds
  obtain ⟨displayed, presents⟩ := shown same
  refine ⟨_, w₀, mounted, held, by decide, nothing, ?_, presents _ _ _ _ inStep⟩
  exact displayed _ count (serves.parses count listed)
    ((serves.scalars count listed).showsBare serves.attentive.plain _)

/-- **Texts that are left behind.** The zero with a sign is skipped in the place of the other one,
and displayed otherwise; an array is displayed as data, which tells a one from the other kind; and
an integer is skipped in the place of the number that it is rounded to, and the other way round,
though each has digits of its own. -/
theorem stale_of_skips :
    let marks : Delimiters := onPage.settings.delimiters
    let zero : Scalar := .number (.integer 0)
    let minusZero : Scalar := .number (.float (.zero true))
    let whole : Scalar := .number (.float .one)
    let next : Number := .integer 9007199254740993
    let float : Number := .float Scalar.twoToThe53
    let list : Store := .ofJson (.object [("list", .array [.integer 1])])
    let wrapped : Store := (Scalar.counter (.integer 1)).define "wrapped" .wrapping
    (zero.strictEq minusZero = true ∧ zero.display = "0" ∧ minusZero.display = "-0") ∧
    ((Scalar.counter (.integer 0)).Skips "n" (.scalar minusZero) ∧
      (Scalar.counter (.integer 0)).shownText marks "\x7b\x7bn\x7d\x7d" = "0" ∧
      ((Scalar.counter (.integer 0)).put ⟨0⟩ minusZero).shownText marks "\x7b\x7bn\x7d\x7d" =
        "-0") ∧
    (list.Skips "list.0" (.scalar whole) ∧
      list.shownText marks "\x7b\x7blist\x7d\x7d" = "[1]" ∧
      (list.put ⟨0⟩ whole).shownText marks "\x7b\x7blist\x7d\x7d" = "[1.0]") ∧
    (wrapped.Skips "n" (.scalar whole) ∧
      wrapped.shownText marks "\x7b\x7bwrapped\x7d\x7d" = "[1]" ∧
      (wrapped.put ⟨0⟩ whole).shownText marks "\x7b\x7bwrapped\x7d\x7d" = "[1.0]") ∧
    (Scalar.RoundsTo (.number next) (.number float) ∧
      Scalar.display (.number next) = "9007199254740993" ∧
      Scalar.display (.number float) = "9007199254740992") ∧
    ((Scalar.counter next).Skips "n" (.scalar (.number float)) ∧
      (Scalar.counter float).Skips "n" (.scalar (.number next)) ∧
      (Scalar.counter next).shownText marks "\x7b\x7bn\x7d\x7d" = "9007199254740993" ∧
      ((Scalar.counter next).put ⟨0⟩ (.number float)).shownText marks "\x7b\x7bn\x7d\x7d" =
        "9007199254740992") := by
  refine ⟨?_, ?_, ?_, ?_, ⟨Scalar.roundsTo_twoToThe53, ?_⟩, ?_⟩ <;> decide +kernel

end World

end Bindery
