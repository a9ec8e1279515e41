import LeafGrammar.Diagnostic
import LeafGrammar.Proofs.Number.Literal
import Mathlib.Data.List.TakeWhile

/-!
# What the rendering of a failure shows

A failure that has its text and an offset in it can always be rendered, unless the offset
itself has too many digits (`ParseFailure.render_eq`). The headline names the character at the
offset or the end of the text. The caret stands under the character: what is shown of the
text from the caret's column on is what stands in the text from the offset on
(`drop_caretColumn`), since each character is shown by itself.
-/

namespace LeafGrammar

/-! ### The text on one line -/

@[simp] theorem oneLine_append (s t : List Char) : oneLine (s ++ t) = oneLine s ++ oneLine t :=
  List.flatMap_append

/-- The line does not break. -/
theorem newline_notMem_oneLine (s : List Char) : '\n' ∉ oneLine s := by
  unfold oneLine
  rw [List.mem_flatMap]
  rintro ⟨c, -, hc⟩
  split at hc
  · exact absurd hc (by decide)
  · rename_i hne
    exact hne (List.mem_singleton.mp hc).symm

/-- An offset in the text cuts it there. -/
theorem Text.before_natCast {s : List Char} {k : Nat} (hk : k ≤ s.length) :
    Text.before s k = s.take k := by
  show s.take (min k s.length) = s.take k
  rw [Nat.min_eq_left hk]

theorem caretColumn_eq {s : List Char} {k : Nat} (hk : k ≤ s.length) :
    caretColumn s k = (oneLine (s.take k)).length := by
  rw [caretColumn, Text.before_natCast hk]

/-- What stands from the caret on is the text from the offset on. -/
theorem drop_caretColumn {s : List Char} {k : Nat} (hk : k ≤ s.length) :
    (oneLine s).drop (caretColumn s k) = oneLine (s.drop k) := by
  have hcut : oneLine s = oneLine (s.take k) ++ oneLine (s.drop k) := by
    rw [← oneLine_append, List.take_append_drop]
  rw [caretColumn_eq hk, hcut, List.drop_left]

/-! ### The headline -/

/-- A text that does not start with a margin is not all margins. -/
theorem Text.trimMargins_ne_nil {s : List Char} {c : Char} (hs : s.head? = some c)
    (hc : isMargin c = false) : trimMargins s ≠ [] := by
  obtain ⟨rest, rfl⟩ := List.head?_eq_some_iff.mp hs
  unfold trimMargins trimBy
  rw [List.dropWhile_cons_of_neg (by simp [hc])]
  intro hnil
  have hall := List.dropWhile_eq_nil_iff.mp (List.reverse_eq_nil_iff.mp hnil)
  have hmem := hall c (by simp)
  rw [hc] at hmem
  cases hmem

/-- The words for the offset `k`: the character there, or the end of the text. Offsets are
shown from one. -/
def Text.placeName (text : List Char) (k : Nat) : String :=
  match text[k]? with
  | some c => "token " ++ Text.quoted (String.singleton c) ++ " at position " ++
      toString ((k + 1 : Nat) : Int)
  | none => "end of input at position " ++ toString ((k + 1 : Nat) : Int)

/-- The character is named before the end of the text, and the end at the end. -/
theorem Text.placeName_iff {text : List Char} {k : Nat} (hk : k ≤ text.length) :
    (k < text.length ↔ ∃ c, text[k]? = some c ∧ placeName text k =
        "token " ++ quoted (String.singleton c) ++ " at position " ++
          toString ((k + 1 : Nat) : Int)) ∧
      (k = text.length ↔
        placeName text k = "end of input at position " ++ toString ((k + 1 : Nat) : Int)) := by
  rcases Nat.lt_or_eq_of_le hk with hlt | heq
  · have hchar : text[k]? = some text[k] := List.getElem?_eq_getElem hlt
    have hname : placeName text k = "token " ++ quoted (String.singleton text[k]) ++
        " at position " ++ toString ((k + 1 : Nat) : Int) := by
      rw [placeName, hchar]
    refine ⟨⟨fun _ => ⟨_, hchar, hname⟩, fun _ => hlt⟩, ⟨fun h => absurd h (by omega), fun h => ?_⟩⟩
    -- the two names differ in their first letter
    rw [hname] at h
    have hhead := congrArg (fun name => name.toList.head?) h
    simp at hhead
  · have hend : text[k]? = none := List.getElem?_eq_none (by omega)
    refine ⟨⟨fun h => absurd h (by omega), ?_⟩, fun _ => ?_, fun _ => heq⟩
    · rintro ⟨c, hc, -⟩
      rw [hend] at hc
      cases hc
    · rw [placeName, hend]

namespace ParseFailure

theorem location_eq {text : List Char} {k : Nat} (hdigits : k + 1 < 10 ^ digitLimit) :
    location text k = .ok (Text.placeName text k) := by
  have hshown : Number.showInt ((k : Int) + 1) = .ok (toString ((k + 1 : Nat) : Int)) := by
    rw [← Int.natCast_add_one]
    exact Number.showInt_natCast hdigits
  have hchar : Text.charAt? text k = text[k]? := rfl
  unfold location Text.placeName
  rw [hchar, hshown]
  split
  · rename_i hend
    rw [List.getElem?_eq_none (by omega)]
    rfl
  · rename_i hin
    rw [List.getElem?_eq_getElem (by omega)]
    rfl

/-- A detail that does not start with a blank is shown. -/
theorem detail?_eq {f : ParseFailure}
    (h : ∀ d, f.detail = some d → ∃ c, d.toList.head? = some c ∧ Text.isMargin c = false) :
    f.detail? = f.detail := by
  unfold detail?
  cases hd : f.detail with
  | none => rfl
  | some d =>
    obtain ⟨c, hhead, hc⟩ := h d hd
    have hkept : (Text.trimMargins d.toList).isEmpty = false :=
      List.isEmpty_eq_false_iff.mpr (Text.trimMargins_ne_nil hhead hc)
    rw [Option.filter_some, hkept]
    rfl

/-- The first line for a place: the detail and the place, or the place alone. -/
def headlineAt (detail : Option String) (place : String) : String :=
  match detail with
  | some d => d ++ " (unexpected " ++ place ++ ")"
  | none => "Unexpected " ++ place

variable {f : ParseFailure} {text : List Char} {pos : Integral} {k : Nat}

theorem headline_eq (hsource : f.source = some text) (hpos : f.pos = some pos)
    (hk : pos.toInt = k) (hdetail : f.detail? = f.detail) (hdigits : k + 1 < 10 ^ digitLimit) :
    f.headline = .ok (headlineAt f.detail (Text.placeName text k)) := by
  unfold headline headlineAt
  rw [hpos, hsource]
  simp only [hk, location_eq hdigits, hdetail]
  cases f.detail <;> rfl

/-- **The rendering of a failure** whose offset is in its text. -/
theorem render_eq (hsource : f.source = some text) (hpos : f.pos = some pos)
    (hk : pos.toInt = k) (hdetail : f.detail? = f.detail) (hdigits : k + 1 < 10 ^ digitLimit) :
    f.render = .ok (headlineAt f.detail (Text.placeName text k) ++ "\n\n" ++
      caretSnippet text k ++ "\n") := by
  unfold render
  rw [headline_eq hsource hpos hk hdetail hdigits, hpos, hsource, ← hk]
  rfl

end ParseFailure

end LeafGrammar
