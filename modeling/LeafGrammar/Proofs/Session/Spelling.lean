import LeafGrammar.Proofs.Engine.Repetition
import LeafGrammar.Proofs.Pattern.Keeping
import LeafGrammar.Proofs.Session.Parsing

/-!
# Tokens spell the text

A rule below which there is no action only takes the text to pieces. Its tokens are texts, and if
its patterns find what they find in place, the tokens put together are what it has read, from the
offset where it started to the one where it stopped (`Derives.spells`). So nothing of the text is
lost and nothing is there twice: what an attempt that fails has read is not among the tokens, and
the tokens that are taken many times over, for rounds that would not move on, are empty.

When such a rule parses a text, its tokens put together are the text (`tokens_spell_text`). A pattern
that keeps only the end of what it takes is another matter: the rule goes on by as many characters
as are kept, from where the pattern was tried (`tokens_unlike_text_behindLetter`).
-/

namespace LeafGrammar

variable {slots : Slots} {text : List Char}

/-! ### Rules without actions -/

namespace Node

/-- No action can be come to from the node. -/
def Actionless (slots : Slots) (n : Node) : Prop :=
  ∀ (id : NodeId) (child : Node) (action : Action), ¬ n.Reaches slots (.map id child action)

theorem Actionless.child {n c : Node} (h : n.Actionless slots) (hc : c ∈ n.children slots) :
    c.Actionless slots :=
  fun id child action hr => h id child action (.head hc hr)

/-- The patterns that can be come to from the node find what they find in the text in place. -/
def FindsInPlace (slots : Slots) (text : List Char) (n : Node) : Prop :=
  ∀ (id : NodeId) (p : Pattern), n.Reaches slots (.leaf id p) → p.FindsInPlace text

/-- The node only takes the text to pieces: it comes to no action, and its patterns find what they
find in place. -/
structure OnlyReads (slots : Slots) (text : List Char) (n : Node) : Prop where
  actionless : n.Actionless slots
  inPlace : n.FindsInPlace slots text

theorem OnlyReads.child {n c : Node} (h : n.OnlyReads slots text) (hc : c ∈ n.children slots) :
    c.OnlyReads slots text where
  actionless := h.actionless.child hc
  inPlace id p hr := h.inPlace id p (.head hc hr)

/-- One piece of such a node: no action, and no pattern that finds something elsewhere. -/
def IsReader (text : List Char) : Node → Prop
  | .leaf _ p => p.FindsInPlace text
  | .map _ _ _ => False
  | _ => True

/-- It is enough that all pieces are of this kind, in the node and in those that are in a slot. -/
theorem onlyReads_of_pieces {n : Node} (hn : ∀ x ∈ n.pieces, x.IsReader text)
    (hslots : ∀ slot target, slots.target? slot = some target →
      ∀ x ∈ target.pieces, x.IsReader text) : n.OnlyReads slots text := by
  have hreached {m : Node} (h : n.Reaches slots m) : m.IsReader text :=
    h.pieces (fun _ _ slot target _ => hslots slot target) hn m (self_mem_pieces m)
  exact ⟨fun id child action => hreached, fun id p => hreached⟩

end Node

/-! ### Pieces of the text -/

/-- The text from the one offset up to the other. -/
def Text.between (s : List Char) (i k : Int) : List Char := s.extract i.toNat k.toNat

theorem Text.between_self (s : List Char) (i : Int) : Text.between s i i = [] := by
  simp [Text.between]

theorem Text.between_append (s : List Char) {i k m : Int} (hik : i ≤ k) (hkm : k ≤ m) :
    Text.between s i k ++ Text.between s k m = Text.between s i m := by
  have hwidth : m.toNat - i.toNat = (k.toNat - i.toNat) + (m.toNat - k.toNat) := by omega
  have hstart : i.toNat + (k.toNat - i.toNat) = k.toNat := by omega
  simp only [Text.between, List.extract_eq_take_drop]
  rw [hwidth, List.take_add, List.drop_drop, hstart]

/-- `Spells text pos q tokens`: the tokens are texts, and put together they are what stands in the
text from `pos` up to `q`. -/
def Spells (text : List Char) (pos q : Integral) (tokens : List Value) : Prop :=
  ∃ pieces : List String, tokens = pieces.map .text ∧
    String.join pieces = String.ofList (Text.between text pos.toInt q.toInt)

namespace Spells

variable {pos q r : Integral} {tokens more : List Value}

theorem nil (text : List Char) (pos : Integral) : Spells text pos pos [] :=
  ⟨[], rfl, by rw [Text.between_self]; rfl⟩

theorem append (h : Spells text pos q tokens) (h' : Spells text q r more)
    (hpos : pos.toInt ≤ q.toInt) (hq : q.toInt ≤ r.toInt) : Spells text pos r (tokens ++ more) := by
  obtain ⟨pieces, rfl, hpieces⟩ := h
  obtain ⟨pieces', rfl, hpieces'⟩ := h'
  refine ⟨pieces ++ pieces', (List.map_append ..).symm, ?_⟩
  rw [String.join_append, hpieces, hpieces', ← String.ofList_append,
    Text.between_append text hpos hq]

/-- The offset up to which the text is spelled is a number. -/
theorem congr (h : Spells text pos q tokens) (hq : q.toInt = r.toInt) :
    Spells text pos r tokens := by
  unfold Spells
  rw [← hq]
  exact h

/-- Tokens that spell nothing do so however often they are taken. -/
theorem replicate (h : Spells text pos pos tokens) (n : Nat) :
    Spells text pos pos (List.replicate n tokens).flatten := by
  induction n with
  | zero => exact nil text pos
  | succ n ih =>
    rw [List.replicate_succ, List.flatten_cons]
    exact h.append ih (Int.le_refl _) (Int.le_refl _)

end Spells

/-! ### What a rule reads -/

/-- The ending, if it is a success, has the tokens `before` and such as spell what has been read
from `pos` on. -/
def Finish.Spells (text : List Char) (before : List Value) (pos : Integral) : Finish → Prop
  | .ok (.success tokens q) => ∃ more, tokens = before ++ more ∧ LeafGrammar.Spells text pos q more
  | _ => True

/-- The tokens that a task starts with. -/
def Task.tokens : Task → List Value
  | .node _ _ => []
  | .rounds _ _ _ tokens _ _ => tokens

/-- The node of a task, or of its rounds, only takes the text to pieces. -/
def Task.OnlyReads (slots : Slots) (text : List Char) : Task → Prop
  | .node n _ => n.OnlyReads slots text
  | .rounds child _ _ _ _ _ => child.OnlyReads slots text

/-- A leaf has one token, which is what it has read. -/
theorem leafResult_spells {p : Pattern} (hp : p.FindsInPlace text) {pos : Integral}
    (hpos : 0 ≤ pos.toInt) : Finish.Spells text [] pos (.ok (leafResult p text pos)) := by
  unfold leafResult
  simp only
  split
  · trivial
  · split
    · trivial
    · rename_i found hfound
      obtain ⟨k, hk⟩ := Int.eq_ofNat_of_zero_le hpos
      rw [hk] at hfound
      have htake : found = (text.drop k).take found.length :=
        List.prefix_iff_eq_take.mp (hp k found hfound)
      have hwidth : (pos.toInt + found.length).toNat - pos.toInt.toNat = found.length := by omega
      have hstart : pos.toInt.toNat = k := by omega
      refine ⟨_, rfl, [String.ofList found], rfl, ?_⟩
      rw [Integral.toInt_advance, Text.between, List.extract_eq_take_drop, hwidth, hstart, ← htake]
      simp

namespace Finish

variable {e : Finish} {before tokens : List Value} {pos q : Integral}

/-- A success in the middle of a task, and what the rest of the task reads from there on. -/
theorem Spells.from (h : LeafGrammar.Spells text pos q tokens) (hq : IsAhead text pos q)
    (he : e.Spells text (before ++ tokens) q) (hahead : e.IsAheadOf text q) :
    e.Spells text before pos := by
  match e, he, hahead with
  | .error f, _, _ => trivial
  | .ok (.failure _ _), _, _ => trivial
  | .ok (.success _ r), ⟨more, hmore, hspells⟩, hahead =>
    refine ⟨tokens ++ more, by rw [hmore, List.append_assoc], ?_⟩
    exact h.append hspells hq.le hahead.le

theorem spells_success :
    Finish.Spells text [] pos (.ok (.success tokens q)) ↔ LeafGrammar.Spells text pos q tokens := by
  constructor
  · rintro ⟨_, rfl, h⟩
    exact h
  · intro h
    exact ⟨tokens, rfl, h⟩

theorem Spells.after (tokens : List Value) (he : e.Spells text [] pos) :
    (e.after tokens).Spells text tokens pos := by
  match e, he with
  | .error f, _ => trivial
  | .ok (.failure _ _), _ => trivial
  | .ok (.success _ _), ⟨more, hmore, hspells⟩ =>
    exact ⟨more, by rw [hmore, List.nil_append], hspells⟩

/-- One part of a rule after the other. -/
theorem Spells.seq (h : Finish.Spells text [] pos (.ok (.success tokens q)))
    (hq : IsAhead text pos q) (he : e.Spells text [] q) (hahead : e.IsAheadOf text q) :
    (e.after tokens).Spells text [] pos := by
  have hrest : (e.after tokens).Spells text ([] ++ tokens) q := he.after tokens
  exact .from (spells_success.mp h) hq hrest (hahead.after tokens)

theorem ofRounds_spells (least : Integral) {cur : Integral} (count : Nat) {more : List Value}
    (htokens : tokens = before ++ more) (h : LeafGrammar.Spells text cur cur more) :
    (ofRounds least tokens cur count).Spells text before cur := by
  unfold ofRounds
  split
  · split <;> trivial
  · exact ⟨more, htokens, h⟩

/-- The tokens of a round that stands still spell nothing, so they may be taken for other rounds. -/
theorem ofSettled_spells (least m : Integral) {round : List Value} (cur : Integral) (count : Nat)
    (h : LeafGrammar.Spells text cur cur round) :
    (ofSettled least m (before ++ round) round cur count).Spells text before cur := by
  unfold ofSettled
  cases hmore : Value.repeatItems round (m.toInt - count) with
  | error f => trivial
  | ok more =>
    rw [Value.repeatItems_ok hmore round, Value.repeated_eq] at hmore
    cases hmore
    exact ofRounds_spells _ _ (List.append_assoc ..)
      (h.append (h.replicate _) (Int.le_refl _) (Int.le_refl _))

end Finish

/-- **What such a rule reads is what its tokens spell.** -/
theorem Derives.spells {t : Task} {e : Finish} (h : Derives slots text t e)
    (ht : t.OnlyReads slots text) (hpos : 0 ≤ t.offset.toInt) :
    e.Spells text t.tokens t.offset := by
  induction h with
  | leaf => exact leafResult_spells (ht.inPlace _ _ .refl) hpos
  | empty => exact ⟨[], rfl, .nil text _⟩
  | seqStop _ _ ih => exact ih (ht.child (by simp [Node.children])) hpos
  | @seq id l r pos q tokens e hl hr ihl ihr =>
    have hq := hl.isAhead_of_success
    have hnonneg : 0 ≤ q.toInt := Int.le_trans hpos hq.le
    exact .seq (ihl (ht.child (by simp [Node.children])) hpos) hq
      (ihr (ht.child (by simp [Node.children])) hnonneg) hr.isAhead
  | choiceLeft _ _ ih => exact ih (ht.child (by simp [Node.children])) hpos
  | choiceRight _ _ _ ihr => exact ihr (ht.child (by simp [Node.children])) hpos
  | @rep id child least most pos e _ ih =>
    have hchild : child.OnlyReads slots text := ht.child (by simp [Node.children])
    exact ih hchild hpos
  | roundsFull _ => exact Finish.ofRounds_spells _ _ (List.append_nil _).symm (.nil text _)
  | roundsOver _ _ _ => exact Finish.ofRounds_spells _ _ (List.append_nil _).symm (.nil text _)
  | roundsFault _ _ _ => trivial
  | @roundsNext child least most tokens round cur q count e _ hround _ hrest ih ihr =>
    have hq := hround.isAhead_of_success
    have hnonneg : 0 ≤ q.toInt := Int.le_trans hpos hq.le
    exact .from (Finish.spells_success.mp (ih ht hpos)) hq (ihr ht hnonneg) hrest.isAhead
  | @roundsFree child least tokens round cur q count _ hq ih =>
    exact ⟨round, rfl, (Finish.spells_success.mp (ih ht hpos)).congr hq⟩
  | @roundsSettled child least m tokens round cur q count _ _ hq ih =>
    exact Finish.ofSettled_spells _ _ _ _ ((Finish.spells_success.mp (ih ht hpos)).congr hq)
  | mapStop _ _ _ => exact absurd .refl (ht.actionless _ _ _)
  | map _ _ => exact absurd .refl (ht.actionless _ _ _)
  | spliceStop _ _ ih => exact ih (ht.child (by simp [Node.children_eq, Node.parts])) hpos
  | spliceEmpty _ _ _ => trivial
  | @splice id base target slot pos q tokens e hb hslot htarget ihb iht =>
    have hq := hb.isAhead_of_success
    have hnonneg : 0 ≤ q.toInt := Int.le_trans hpos hq.le
    exact .seq (ihb (ht.child (by simp [Node.children, hslot])) hpos) hq
      (iht (ht.child (by simp [Node.children, hslot])) hnonneg) htarget.isAhead

/-- Where such a rule parses a text, its tokens put together are the text. -/
theorem Session.exists_pieces_of_parse {s : Session} {fuel : Nat} {r : Rule} {tokens : List Value}
    (hr : r.node.OnlyReads s.slots text) (h : (s.parse fuel r text).1 = .value tokens) :
    ∃ pieces : List String, tokens = pieces.map .text ∧
      String.join pieces = String.ofList text := by
  obtain ⟨q, hd, hq⟩ := Session.parse_value h
  have hspells : Spells text (.num 0) q tokens :=
    Finish.spells_success.mp (hd.spells hr (Int.le_refl 0))
  obtain ⟨pieces, hpieces, hjoin⟩ := hspells
  refine ⟨pieces, hpieces, ?_⟩
  rw [hjoin, hq]
  simp [Text.between]

/-- **Nothing is lost and nothing is there twice.** The tokens of a rule that comes to no action, and
whose patterns find what they find in place, are texts. Where the rule succeeds they are, put
together, what stands in the text between the offset where it was started and the one where it
stopped, in whatever journal it is run; and where it parses a text they are the text. -/
theorem tokens_spell_text (s : Session) (r : Rule) (text : List Char)
    (hactions : r.node.Actionless s.slots) (hpatterns : r.node.FindsInPlace s.slots text) :
    (∀ (fuel : Nat) (j : Journal) (pos q : Integral) (tokens : List Value), 0 ≤ pos.toInt →
        (evaluateIn fuel s.slots text r.node pos j).1 = .value (.success tokens q) →
          ∃ pieces : List String, tokens = pieces.map .text ∧
            String.join pieces = String.ofList (Text.between text pos.toInt q.toInt)) ∧
      ∀ (fuel : Nat) (tokens : List Value), (s.parse fuel r text).1 = .value tokens →
        ∃ pieces : List String, tokens = pieces.map .text ∧
          String.join pieces = String.ofList text := by
  have hr : r.node.OnlyReads s.slots text := ⟨hactions, hpatterns⟩
  constructor
  · intro fuel j pos q tokens hpos h
    have hd : Derives s.slots text (.node r.node pos) (.ok (.success tokens q)) :=
      Machine.exists_evaluate_eq_iff.mp ⟨fuel, evaluateIn_value h⟩
    exact Finish.spells_success.mp (hd.spells hr hpos)
  · exact fun fuel tokens => Session.exists_pieces_of_parse hr

/-- Parentheses with the rule itself between them, or else two or three times a letter `a` or
nothing. -/
def parenthesised : Rule where
  id := 7
  node := .choice 6 (.seq 3 (.splice 1 (.leaf 0 (.ofRegex "\\(" (.one (.ofChar '(') .exact))) 0)
      (.leaf 2 (.ofRegex "\\)" (.one (.ofChar ')') .exact))))
    (.rep 5 (.leaf 4 (.ofRegex "a?" (.loop (.one (.ofChar 'a') .exact) 0 (some 1) .greedy)))
      (.num 2) (some (.num 3)))
  chain := 0

theorem parenthesised_isReader (text : List Char) :
    ∀ x ∈ parenthesised.node.pieces, x.IsReader text := by
  have hin (source : String) (root : Pattern.Regex) (h : root.isKeepless = true) :
      (Pattern.ofRegex source root).FindsInPlace text :=
    Pattern.findsInPlace_of_isKeepless source h text
  simp only [parenthesised, Node.pieces, List.mem_cons, List.mem_append, List.not_mem_nil, or_false]
  rintro x (rfl | (rfl | (rfl | rfl) | rfl) | rfl | rfl) <;>
    first | trivial | exact hin _ _ rfl

/-- In `(a)` the attempt at a second parenthesis leaves no token, and of the two empty tokens the
last one stands for a round that is not made. -/
theorem tokens_spell_text_parenthesised :
    ∃ s : Session, s.slots = #[some parenthesised.node] ∧
      (s.parse 40 parenthesised ['(', 'a', ')']).1 =
        .value [.text "(", .text "a", .text "", .text "", .text ")"] ∧
      ∃ pieces : List String, ["(", "a", "", "", ")"].map Value.text = pieces.map .text ∧
        String.join pieces = "(a)" := by
  let s : Session :=
    { Session.new (Journal.new false "WARNING") with slots := #[some parenthesised.node] }
  have hslots (slot : SlotId) (target : Node) (h : s.slots.target? slot = some target) :
      ∀ x ∈ target.pieces, x.IsReader ['(', 'a', ')'] := by
    match slot, h with
    | 0, h =>
      obtain rfl := Option.some.inj h
      exact parenthesised_isReader _
  have hreads : parenthesised.node.OnlyReads s.slots ['(', 'a', ')'] :=
    Node.onlyReads_of_pieces (parenthesised_isReader _) hslots
  have hparse : (s.parse 40 parenthesised ['(', 'a', ')']).1 =
      .value [.text "(", .text "a", .text "", .text "", .text ")"] := rfl
  exact ⟨s, rfl, hparse,
    (tokens_spell_text s parenthesised _ hreads.actionless hreads.inPlace).2 40 _ hparse⟩

/-- A letter `b` behind a letter `a` that is not kept. -/
def behindLetter : Rule where
  id := 0
  node := .leaf 0 (.ofRegex "a\\Kb"
    (.seq (.one (.ofChar 'a') .exact) (.seq .keep (.one (.ofChar 'b') .exact))))
  chain := 0

/-- Without the condition on patterns tokens may be unlike the text: in `ab` the letter `b` is found,
one character long, so the rule stops behind the `a`, which is not what it has read. -/
theorem tokens_unlike_text_behindLetter :
    ∃ s : Session, Build.leaf "a\\Kb" .none (Session.new (Journal.new false "WARNING")) =
        (.ok behindLetter, s) ∧
      behindLetter.node.Actionless s.slots ∧
      evaluate 2 s.slots ['a', 'b'] behindLetter.node (.num 0) =
        .value (.success [.text "b"] (.num 1)) ∧
      ¬ ∃ pieces : List String, [Value.text "b"] = pieces.map .text ∧
        String.join pieces = String.ofList (Text.between ['a', 'b'] 0 1) := by
  refine ⟨_, rfl, ?_, rfl, ?_⟩
  · intro id child action h
    -- a leaf has no children
    rcases Relation.ReflTransGen.cases_head h with heq | ⟨c, hc, -⟩
    · cases heq
    · cases hc
  · rintro ⟨pieces, hpieces, hjoin⟩
    obtain ⟨piece, rfl, hpiece⟩ := List.map_eq_singleton_iff.mp hpieces.symm
    cases hpiece
    exact absurd hjoin (by decide)

end LeafGrammar
