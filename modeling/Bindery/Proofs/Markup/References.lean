import Bindery.Markup.Reference
import Bindery.Markup.Writer

namespace Bindery

/-!
# What decoding makes of a text

A candidate runs from an ampersand to the next semicolon, and only if no other ampersand comes
first.  A candidate that names a character becomes it; whatever else there is stays.

* `Decodes` — these rules as a relation; `decodeReferences_eq_iff` says that decoding follows them.
* `decodeReferences_escapeText`, `decodeReferences_escapeAttr` — decoding undoes both escapings.
-/

/-- Characters that can stand between the ampersand and the semicolon of a reference. -/
def IsReferenceName (name : List Char) : Prop := ∀ c ∈ name, c ≠ '&' ∧ c ≠ ';'

instance (name : List Char) : Decidable (IsReferenceName name) :=
  List.decidableBAll (fun c => c ≠ '&' ∧ c ≠ ';') name

namespace References

/-- Inside a candidate all other characters are collected. -/
theorem decodeFrom_append {name : List Char} (plain : IsReferenceName name) (rest : List Char) :
    ∀ sofar, decodeFrom (some sofar) (name ++ rest) =
      decodeFrom (some (name.reverse ++ sofar)) rest := by
  induction name with
  | nil => intro sofar; rfl
  | cons c name ih =>
    intro sofar
    obtain ⟨hamp, hsemi⟩ := plain c (by simp)
    rw [List.cons_append, decodeFrom, if_neg hamp, if_neg hsemi,
      ih (fun d hd => plain d (by simp [hd]))]
    simp

end References

open References

variable {name : List Char}

/-- A candidate that a semicolon ends is decided, and what follows is decoded on its own. -/
theorem decodeReferences_reference (plain : IsReferenceName name) (rest : List Char) :
    decodeReferences ('&' :: name ++ ';' :: rest) =
      (match referenced? name with
        | some decoded => [decoded]
        | none => '&' :: name ++ [';']) ++ decodeReferences rest := by
  have hname : decodeReferences ('&' :: name ++ ';' :: rest) =
      decodeFrom (some name.reverse) (';' :: rest) := by
    simpa [decodeReferences, decodeFrom] using decodeFrom_append plain (';' :: rest) []
  rw [hname, decodeFrom, if_neg (by decide), if_pos rfl, List.reverse_reverse]
  cases referenced? name <;> simp [decodeReferences]

/-- A candidate that another ampersand cuts short stays, and the other one starts a new one. -/
theorem decodeReferences_restart (plain : IsReferenceName name) (rest : List Char) :
    decodeReferences ('&' :: name ++ '&' :: rest) =
      '&' :: name ++ decodeReferences ('&' :: rest) := by
  have hname : decodeReferences ('&' :: name ++ '&' :: rest) =
      decodeFrom (some name.reverse) ('&' :: rest) := by
    simpa [decodeReferences, decodeFrom] using decodeFrom_append plain ('&' :: rest) []
  rw [hname, decodeFrom, if_pos rfl, List.reverse_reverse]
  simp [decodeReferences, decodeFrom]

/-- A candidate that the end cuts short stays. -/
theorem decodeReferences_open (plain : IsReferenceName name) :
    decodeReferences ('&' :: name) = '&' :: name := by
  have hname : decodeReferences ('&' :: name) = decodeFrom (some name.reverse) [] := by
    simpa [decodeReferences, decodeFrom] using decodeFrom_append plain [] []
  rw [hname, decodeFrom, List.reverse_reverse]

/-- Where a reference ends that names a character, that character stands in its place. -/
theorem decodeReferences_of_referenced (name : List Char) (plain : IsReferenceName name)
    {decoded : Char} (h : referenced? name = some decoded) (rest : List Char) :
    decodeReferences ('&' :: name ++ ';' :: rest) = decoded :: decodeReferences rest := by
  rw [decodeReferences_reference plain, h]
  rfl

/-! ### The rules of decoding -/

/-- What decoding may make of a text. -/
inductive Decodes : List Char → List Char → Prop where
  | nil : Decodes [] []
  /-- Characters outside of candidates stay. -/
  | plain {c : Char} {rest out : List Char} (outside : c ≠ '&') (after : Decodes rest out) :
      Decodes (c :: rest) (c :: out)
  /-- A reference that names a character becomes it. -/
  | named {name rest out : List Char} {decoded : Char} (inside : IsReferenceName name)
      (names : referenced? name = some decoded) (after : Decodes rest out) :
      Decodes ('&' :: name ++ ';' :: rest) (decoded :: out)
  /-- A reference that names none stays, and decoding goes on behind its semicolon. -/
  | unnamed {name rest out : List Char} (inside : IsReferenceName name)
      (names : referenced? name = none) (after : Decodes rest out) :
      Decodes ('&' :: name ++ ';' :: rest) ('&' :: name ++ ';' :: out)
  /-- An ampersand before the semicolon starts over. -/
  | restart {name rest out : List Char} (inside : IsReferenceName name)
      (after : Decodes ('&' :: rest) out) :
      Decodes ('&' :: name ++ '&' :: rest) ('&' :: name ++ out)
  /-- At the end there is no reference any more. -/
  | unfinished {name : List Char} (inside : IsReferenceName name) :
      Decodes ('&' :: name) ('&' :: name)

/-- What decoding makes of a text, outside of a candidate and inside of one. -/
theorem decodes_decodeFrom (cs : List Char) :
    Decodes cs (decodeFrom none cs) ∧ ∀ name, IsReferenceName name.reverse →
      Decodes ('&' :: name.reverse ++ cs) (decodeFrom (some name) cs) := by
  induction cs with
  | nil =>
    refine ⟨.nil, fun name inside => ?_⟩
    rw [List.append_nil]
    exact .unfinished inside
  | cons c cs ih =>
    obtain ⟨outside, within⟩ := ih
    constructor
    · rw [decodeFrom]
      split
      · next hamp => exact hamp ▸ within [] (by simp [IsReferenceName])
      · next hamp => exact .plain hamp outside
    · intro name inside
      rw [decodeFrom]
      split
      · next hamp =>
        subst hamp
        exact .restart inside (within [] (by simp [IsReferenceName]))
      · next hamp =>
        split
        · next hsemi =>
          subst hsemi
          split
          · next names => exact .named inside names outside
          · next names => exact .unnamed inside names outside
        · next hsemi =>
          -- one more character of the candidate
          have hinside : IsReferenceName (c :: name).reverse := by
            intro d hd
            rcases List.mem_cons.1 (List.mem_reverse.1 hd) with rfl | hd
            · exact ⟨hamp, hsemi⟩
            · exact inside d (List.mem_reverse.2 hd)
          simpa using within (c :: name) hinside

/-- **Decoding follows its rules**, and these leave no choice. -/
theorem decodeReferences_eq_iff (cs out : List Char) :
    decodeReferences cs = out ↔ Decodes cs out := by
  constructor
  · rintro rfl
    exact (decodes_decodeFrom cs).1
  · intro h
    induction h with
    | nil => rfl
    | plain outside _ ih => rw [decodeReferences_cons outside, ih]
    | named inside names _ ih => rw [decodeReferences_reference inside, names, ih]; rfl
    | unnamed inside names _ ih => rw [decodeReferences_reference inside, names, ih]; simp
    | restart inside _ ih => rw [decodeReferences_restart inside, ih]
    | unfinished inside => exact decodeReferences_open inside

/-! ### Escaping -/

/-- **A character of text is read back**, whatever follows it. -/
theorem decodeReferences_escapeTextChar (c : Char) (rest : List Char) :
    decodeReferences (escapeTextChar c ++ rest) = c :: decodeReferences rest := by
  unfold escapeTextChar
  split
  · exact decodeReferences_of_referenced "amp".toList (by decide) (by decide +kernel) rest
  · exact decodeReferences_of_referenced "lt".toList (by decide) (by decide +kernel) rest
  · exact decodeReferences_of_referenced "gt".toList (by decide) (by decide +kernel) rest
  · next hamp _ _ => exact decodeReferences_cons hamp rest

/-- **A character of an attribute value is read back**, whatever follows it. -/
theorem decodeReferences_escapeAttrChar (c : Char) (rest : List Char) :
    decodeReferences (escapeAttrChar c ++ rest) = c :: decodeReferences rest := by
  unfold escapeAttrChar
  split
  · exact decodeReferences_of_referenced "amp".toList (by decide) (by decide +kernel) rest
  · exact decodeReferences_of_referenced "quot".toList (by decide) (by decide +kernel) rest
  · next hamp _ => exact decodeReferences_cons hamp rest

/-- **Decoding undoes the escaping of text.** -/
theorem decodeReferences_escapeText (cs : List Char) :
    decodeReferences (escapeText cs) = cs := by
  induction cs with
  | nil => rfl
  | cons c cs ih =>
    rw [escapeText, List.flatMap_cons, decodeReferences_escapeTextChar]
    exact congrArg (c :: ·) ih

/-- **Decoding undoes the escaping of attribute values.** -/
theorem decodeReferences_escapeAttr (cs : List Char) :
    decodeReferences (escapeAttr cs) = cs := by
  induction cs with
  | nil => rfl
  | cons c cs ih =>
    rw [escapeAttr, List.flatMap_cons, decodeReferences_escapeAttrChar]
    exact congrArg (c :: ·) ih

/-! ### Decoding leaves no text empty -/

/-- What follows an ampersand is decoded to something: nothing is lost altogether. -/
theorem decodeFrom_ne_nil (cs : List Char) :
    ∀ sofar, decodeFrom (some sofar) cs ≠ [] := by
  induction cs with
  | nil => intro sofar; simp [decodeFrom]
  | cons c cs ih =>
    intro sofar
    rw [decodeFrom]
    split
    · simp
    · split
      · split <;> simp
      · exact ih _

/-- A text that is not empty is not decoded to one that is. -/
theorem decodeReferences_ne_nil {cs : List Char} (h : cs ≠ []) : decodeReferences cs ≠ [] := by
  cases cs with
  | nil => exact absurd rfl h
  | cons c cs =>
    rw [decodeReferences, decodeFrom]
    split
    · exact decodeFrom_ne_nil cs []
    · simp

end Bindery
