import LeafGrammar.Proofs.Engine.Legibility
import LeafGrammar.Proofs.Grammar.KeyValue

/-!
# Grammars that a trace cannot stop

Lexemes and symbols are legible, and so is the key/value grammar: its repetitions have the bounds
zero and one, and its actions make texts, pairs and dictionaries. On a text whose length can be
written it is run with a trace as it is without (`Blocks.RunsFreely.of_isWritable`).
-/

namespace LeafGrammar

namespace Grammar

theorem discard_keepsPlain : discard.KeepsPlain := by
  refine Action.keepsPlain_of_apply fun tokens v _ hv => ?_
  cases hv
  exact Value.IsPlain.list_iff.mpr (List.forall_mem_nil _)

/-- The bounds zero and one can be written. -/
theorem isLegible_atMostOne (i : NodeId) (n : Node) :
    (Node.rep i n (.num 0) (some (.num 1))).IsLegible :=
  ⟨rfl, fun m hm => by cases hm; rfl⟩

theorem isLegible_star (i : NodeId) (n : Node) : (Node.rep i n (.num 0) none).IsLegible :=
  ⟨rfl, fun m hm => by cases hm⟩

theorem IsSpaces.isLegible {n : Node} (h : IsSpaces n) : ∀ x ∈ n.pieces, x.IsLegible := by
  obtain ⟨i, j, k⟩ := h
  simp only [Node.pieces, List.forall_mem_cons]
  exact ⟨isLegible_atMostOne _ _, discard_keepsPlain, trivial, List.forall_mem_nil _⟩

theorem IsLexeme.isLegible {n : Node} {p : Pattern} (h : IsLexeme p n) :
    ∀ x ∈ n.pieces, x.IsLegible := by
  obtain ⟨i, j, hb⟩ := h
  simp only [Node.pieces, List.forall_mem_cons, List.forall_mem_append]
  exact ⟨trivial, hb.isLegible, trivial, List.forall_mem_nil _⟩

theorem IsSymbol.isLegible {n : Node} {p : Pattern} (h : IsSymbol p n) :
    ∀ x ∈ n.pieces, x.IsLegible := by
  obtain ⟨i, hn⟩ := h
  simp only [Node.pieces, List.forall_mem_cons]
  exact ⟨discard_keepsPlain, hn.isLegible⟩

end Grammar

/-! ### Dictionaries -/

namespace Value

variable {k v : Value} {es done : List (Value × Value)}

theorem bindKey_isPlain (hk : k.IsPlain) (hv : v.IsPlain)
    (hes : ∀ e ∈ es, e.1.IsPlain ∧ e.2.IsPlain) :
    ∀ e ∈ bindKey k v es, e.1.IsPlain ∧ e.2.IsPlain := by
  induction es with
  | nil => simpa [bindKey] using ⟨hk, hv⟩
  | cons e es ih =>
    obtain ⟨he, hes⟩ := List.forall_mem_cons.mp hes
    simp only [bindKey]
    split
    · exact List.forall_mem_cons.mpr ⟨⟨he.1, hv⟩, hes⟩
    · exact List.forall_mem_cons.mpr ⟨he, ih hes⟩

theorem entryOf_isPlain {index : Nat} {entry : Value × Value} (hv : v.IsPlain)
    (h : entryOf index v = .ok entry) : entry.1.IsPlain ∧ entry.2.IsPlain := by
  unfold entryOf at h
  split at h
  · cases h
  · rename_i k x hitems
    cases h
    have hplain := hv.items hitems
    exact ⟨hplain k (by simp), hplain x (by simp)⟩
  · cases h

theorem tableFrom_isPlain {index : Nat} {tokens : List Value} (htokens : ∀ v ∈ tokens, v.IsPlain)
    (hdone : ∀ e ∈ done, e.1.IsPlain ∧ e.2.IsPlain) (h : tableFrom index tokens done = .ok es) :
    ∀ e ∈ es, e.1.IsPlain ∧ e.2.IsPlain := by
  induction tokens generalizing index done with
  | nil =>
    cases h
    exact hdone
  | cons v tokens ih =>
    obtain ⟨hv, htokens⟩ := List.forall_mem_cons.mp htokens
    obtain ⟨entry, hentry, h⟩ := exists_of_bind_eq_ok h
    obtain ⟨-, -, h⟩ := exists_of_bind_eq_ok h
    obtain ⟨hk, hx⟩ := entryOf_isPlain hv hentry
    exact ih htokens (bindKey_isPlain hk hx hdone) h

end Value

/-! ### The key/value grammar -/

namespace Blocks

open Grammar

theorem unquote_keepsPlain : unquote.KeepsPlain := by
  refine Action.keepsPlain_of_apply fun tokens v _ hv => ?_
  cases tokens with
  | nil => cases hv
  | cons token rest =>
    obtain ⟨s, -, hs⟩ := exists_of_bind_eq_ok hv
    cases hs
    exact Value.IsPlain.list_iff.mpr (List.forall_mem_singleton.mpr (.text s))

theorem pairUp_keepsPlain : pairUp.KeepsPlain := by
  refine Action.keepsPlain_of_apply fun tokens v htokens hv => ?_
  match tokens, hv with
  | k :: x :: rest, rfl =>
    refine Value.IsPlain.list_iff.mpr (List.forall_mem_singleton.mpr ?_)
    exact Value.IsPlain.tuple_iff.mpr fun y hy => htokens y (by simp at hy ⊢; tauto)

theorem toTable_keepsPlain : toTable.KeepsPlain := by
  refine Action.keepsPlain_of_apply fun tokens v htokens hv => ?_
  obtain ⟨table, htable, hv⟩ := exists_of_bind_eq_ok hv
  cases hv
  obtain ⟨es, hes, htable⟩ := exists_of_bind_eq_ok htable
  cases htable
  refine Value.IsPlain.list_iff.mpr (List.forall_mem_singleton.mpr (Value.IsPlain.dict_iff.mpr ?_))
  exact Value.tableFrom_isPlain htokens (List.forall_mem_nil _) hes

variable {slots : Slots} {slot : SlotId} {content pair body : Node} {text : List Char}

theorem Layout.isLegible (L : Layout slots slot content pair body) :
    ∀ x ∈ body.pieces, x.IsLegible := by
  have hcontent : ∀ x ∈ content.pieces, x.IsLegible := by
    obtain ⟨_, _, _, _, _, _, _, hopen, hclose, hquoted, hbare⟩ := L.isContent
    simp only [Node.pieces, List.forall_mem_cons, List.forall_mem_append]
    exact ⟨trivial, ⟨trivial, ⟨trivial, ⟨trivial, trivial, ⟨trivial, List.forall_mem_nil _⟩,
      hopen.isLegible⟩, hclose.isLegible⟩, unquote_keepsPlain, hquoted.isLegible⟩, hbare.isLegible⟩
  have hpair : ∀ x ∈ pair.pieces, x.IsLegible := by
    obtain ⟨_, _, _, hkey, hequals⟩ := L.isPair
    simp only [Node.pieces, List.forall_mem_cons, List.forall_mem_append]
    exact ⟨pairUp_keepsPlain, trivial, ⟨trivial, hkey.isLegible, hequals.isLegible⟩, hcontent⟩
  obtain ⟨_, _, _, _, _, _, _, _, _, hseparator, hlast⟩ := L.isBody
  simp only [Node.pieces, List.forall_mem_cons, List.forall_mem_append]
  exact ⟨toTable_keepsPlain, trivial, ⟨trivial, List.forall_mem_nil _⟩, isLegible_atMostOne _ _,
    trivial, ⟨trivial, hpair, isLegible_star _ _, trivial, hseparator.isLegible, hpair⟩,
    isLegible_atMostOne _ _, hlast.isLegible⟩

/-- **The key/value grammar is legible.** -/
theorem IsKeyValue.legible {n : Node} (h : IsKeyValue slots n) : n.Legible slots := by
  obtain ⟨i, L, hspaces⟩ := h
  rename_i slot content pair body tail
  refine .of_pieces (S := (· = slot)) ?_ ?_ ?_
  · rintro _ target rfl htarget
    rw [L.filled] at htarget
    cases htarget
    exact ⟨L.points, L.isLegible⟩
  · simpa only [Node.points, hspaces.points_eq, List.append_nil] using L.points
  · simp only [Node.pieces, List.forall_mem_cons, List.forall_mem_append]
    exact ⟨trivial, L.isLegible, hspaces.isLegible⟩

/-- With a trace the grammar is run on every text whose length can be written. -/
theorem RunsFreely.of_isWritable (s : Session) (htext : Number.isWritable text.length = true) :
    RunsFreely s text := by
  intro r s' hrun j _ fuel
  obtain ⟨r', s'', hbuild, -, hr⟩ := keyValue_builds s
  rw [hrun] at hbuild
  cases hbuild
  exact hr.legible.evaluateIn_eq htext fuel j

end Blocks

end LeafGrammar
