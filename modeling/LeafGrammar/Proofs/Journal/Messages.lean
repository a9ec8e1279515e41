import LeafGrammar.Journal
import Mathlib.Data.List.Forall2

/-!
# What the journal takes

A message has a level, a speaker and a text. `Journal.Takes` says how a list of messages goes into
the journal: each in its turn, to every handler that takes its level. A text is needed only where
some handler takes the message. What one handler makes of a list of messages can be told apart from
what the others make of it (`Journal.filter_entries`): each message that it takes, once and in order
(`Journal.forall₂_writes`).
-/

namespace LeafGrammar

/-- Something that is said to the journal. Its text is made out only if a handler takes it, and that
may fail. -/
structure Message where
  level : Level
  speaker : String
  text : Except Fault String

/-- The line is that of the message, as `configure` has it written. -/
def Message.IsWrittenAs (m : Message) (line : String) : Prop :=
  ∃ t, m.text = .ok t ∧ line = Journal.line m.level m.speaker t

/-- The entry is what the handler makes of the message. -/
def Handler.Writes (h : Handler) (m : Message) (e : Entry) : Prop :=
  ∃ t, m.text = .ok t ∧ e = h.entry m.level m.speaker t

namespace Journal

/-! ### Messages -/

/-- A message adds lines to the journal and changes nothing else of it. -/
theorem write_eq (j : Journal) (level : Level) (speaker message : String) :
    ∃ written, j.write level speaker message = { j with written := written } := by
  unfold write
  split
  · exact ⟨_, rfl⟩
  · exact ⟨j.written, rfl⟩

/-- Write a message if its text can be made out. -/
def tell (j : Journal) (m : Message) : Journal :=
  match m.text with
  | .ok t => j.write m.level m.speaker t
  | .error _ => j

/-- What the handlers make of a message. -/
def entriesFor (j : Journal) (m : Message) : List Entry :=
  match m.text with
  | .ok t =>
    if j.enabled then (j.handlers.filter (·.takes m.level)).map (·.entry m.level m.speaker t) else []
  | .error _ => []

theorem tell_eq (j : Journal) (m : Message) :
    j.tell m = { j with written := (j.entriesFor m).reverse ++ j.written } := by
  unfold tell entriesFor write
  split
  · split <;> rfl
  · rfl

theorem wants_of_mem {j : Journal} {h : Handler} {level : Level} (henabled : j.enabled = true)
    (hh : h ∈ j.handlers) (htakes : h.takes level = true) : j.wants level = true := by
  rw [wants, henabled, Bool.true_and, List.any_eq_true]
  exact ⟨h, hh, htakes⟩

theorem entriesFor_of_not_wants {j : Journal} {m : Message} (h : j.wants m.level = false) :
    j.entriesFor m = [] := by
  unfold entriesFor
  split
  · split
    · rename_i henabled
      have hnone : j.handlers.filter (·.takes m.level) = [] := by
        simpa [wants, henabled] using h
      rw [hnone, List.map_nil]
    · rfl
  · rfl

/-- A message that no handler takes changes nothing. -/
theorem tell_of_not_wants {j : Journal} {m : Message} (h : j.wants m.level = false) :
    j.tell m = j := by
  rw [tell_eq, entriesFor_of_not_wants h]
  rfl

/-- The journal after the messages. Where a handler takes one, its text has been made out. -/
def Takes (j : Journal) (messages : List Message) (j' : Journal) : Prop :=
  (∀ m ∈ messages, j.wants m.level = true → ∃ t, m.text = .ok t) ∧ j' = messages.foldl tell j

namespace Takes

variable {j j' j'' : Journal} {messages more : List Message}

theorem nil (j : Journal) : j.Takes [] j := by
  refine ⟨fun m hm => ?_, rfl⟩
  cases hm

/-- What is written is what the handlers make of each message in its turn. -/
theorem eq (h : j.Takes messages j') :
    j' = { j with written := (messages.flatMap j.entriesFor).reverse ++ j.written } := by
  obtain ⟨-, rfl⟩ := h
  induction messages generalizing j with
  | nil => rfl
  | cons m messages ih =>
    have hsame : (j.tell m).entriesFor = j.entriesFor := by
      rw [tell_eq]
      rfl
    rw [List.foldl_cons, ih (j := j.tell m), hsame, tell_eq, List.flatMap_cons,
      List.reverse_append, List.append_assoc]

/-- Of the journal only the lines change. -/
theorem exists_eq (h : j.Takes messages j') : ∃ written, j' = { j with written := written } :=
  ⟨_, h.eq⟩

theorem wants_eq (h : j.Takes messages j') (level : Level) : j'.wants level = j.wants level := by
  obtain ⟨written, rfl⟩ := h.exists_eq
  rfl

theorem append (h : j.Takes messages j') (h' : j'.Takes more j'') :
    j.Takes (messages ++ more) j'' := by
  refine ⟨fun m hm hwants => ?_, ?_⟩
  · rcases List.mem_append.mp hm with hm | hm
    · exact h.1 m hm hwants
    · exact h'.1 m hm (by rwa [h.wants_eq])
  · rw [List.foldl_append, ← h.2, h'.2]

/-- A message that is written. -/
theorem write (j : Journal) (level : Level) (speaker t : String) :
    j.Takes [⟨level, speaker, .ok t⟩] (j.write level speaker t) := by
  refine ⟨fun m hm _ => ⟨t, ?_⟩, rfl⟩
  rw [List.mem_singleton.mp hm]

/-- A message that no handler takes. -/
theorem skip {m : Message} (h : j.wants m.level = false) : j.Takes [m] j := by
  refine ⟨fun m' hm hwants => ?_, (tell_of_not_wants h).symm⟩
  rw [List.mem_singleton.mp hm, h] at hwants
  cases hwants

end Takes

/-! ### Who writes what -/

variable {j : Journal} {messages : List Message}

theorem entriesFor_of_not_enabled (h : j.enabled = false) (m : Message) : j.entriesFor m = [] := by
  unfold entriesFor
  split
  · rw [h]
    rfl
  · rfl

/-- Every entry is one that a handler has made. -/
theorem exists_handler_of_mem {e : Entry} (he : e ∈ messages.flatMap j.entriesFor) :
    ∃ h ∈ j.handlers, e.handler = h.id := by
  obtain ⟨m, -, he⟩ := List.mem_flatMap.mp he
  unfold entriesFor at he
  split at he
  · split at he
    · obtain ⟨h, hh, rfl⟩ := List.mem_map.mp he
      exact ⟨h, List.mem_of_mem_filter hh, rfl⟩
    · cases he
  · cases he

/-- The entries of some of the handlers are those that would be there if they were all the handlers
there are. -/
theorem filter_entries {p : Handler → Bool} {q : Entry → Bool}
    (hq : ∀ h level speaker t, q (h.entry level speaker t) = p h) :
    (messages.flatMap j.entriesFor).filter q =
      messages.flatMap { j with handlers := j.handlers.filter p }.entriesFor := by
  rw [List.filter_flatMap]
  congr 1
  funext m
  unfold entriesFor
  split
  · rename_i t _
    have hcomp : (q ∘ (·.entry m.level m.speaker t)) = p := funext fun h => hq h _ _ _
    simp only
    split
    · rw [List.filter_map, hcomp, List.filter_filter, List.filter_filter]
      simp only [Bool.and_comm]
    · rfl
  · rfl

theorem entries_of_no_handlers (h : j.handlers = []) : messages.flatMap j.entriesFor = [] := by
  rw [List.flatMap_eq_nil_iff]
  intro m _
  unfold entriesFor
  rw [h]
  split
  · exact ite_self _
  · rfl

/-- **One handler** makes an entry of each message that it takes, in order, and of no other. -/
theorem forall₂_writes {h : Handler} (henabled : j.enabled = true) (hone : j.handlers = [h])
    (hm : ∀ m ∈ messages, h.takes m.level = true → ∃ t, m.text = .ok t) :
    List.Forall₂ h.Writes (messages.filter (h.takes ·.level)) (messages.flatMap j.entriesFor) := by
  induction messages with
  | nil => exact .nil
  | cons m messages ih =>
    have hrest := ih fun m' hm' => hm m' (List.mem_cons_of_mem m hm')
    have hwants : j.wants m.level = h.takes m.level := by simp [wants, henabled, hone]
    cases htakes : h.takes m.level with
    | true =>
      obtain ⟨t, ht⟩ := hm m List.mem_cons_self htakes
      have hentry : j.entriesFor m = [h.entry m.level m.speaker t] := by
        simp [entriesFor, ht, henabled, hone, htakes]
      rw [List.filter_cons, if_pos htakes, List.flatMap_cons, hentry]
      exact .cons ⟨t, ht, rfl⟩ hrest
    | false =>
      rw [htakes] at hwants
      rw [List.filter_cons, if_neg (by simp [htakes]), List.flatMap_cons,
        entriesFor_of_not_wants hwants]
      exact hrest

end Journal

end LeafGrammar
