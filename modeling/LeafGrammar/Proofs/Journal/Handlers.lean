import LeafGrammar.Proofs.Journal.Messages
import Mathlib.Data.List.Nodup

/-!
# Whose handlers there are

The handlers fall into those that `configure` has installed and those of the host, some of which may
be there from the start (`Hosts`). `Journal.Ledger` keeps the account of both: which numbers
`configure` has given, which handlers are the host's, and where a message goes that is written now.
All that can happen to handlers keeps it. From it follows what the handlers of `configure` write to a
sink (`Journal.Ledger.forall₂_isWrittenAs`) and what each handler of the host writes
(`Journal.Ledger.forall₂_writes_host`).
-/

namespace LeafGrammar

/-- The handlers that the host has before there is any other, each with a number of its own. A host
that has done nothing has one already: a handler for `debug` on standard error. -/
structure Hosts where
  handlers : List Handler
  nextId : HandlerId
  handlers_lt : ∀ h ∈ handlers, h.id < nextId
  nodup : (handlers.map (·.id)).Nodup

namespace Hosts

/-- A host that has taken away all handlers. -/
def none : Hosts := ⟨[], 0, fun _ hh => absurd hh List.not_mem_nil, List.nodup_nil⟩

/-- A host with a single handler. -/
def single (level : Level) (sink : SinkId) (format : Level → String → String → String) : Hosts where
  handlers := [⟨0, level, sink, format⟩]
  nextId := 1
  handlers_lt _ hh := List.mem_singleton.mp hh ▸ Nat.one_pos
  nodup := List.pairwise_singleton ..

end Hosts

namespace Journal

/-! ### Handlers -/

theorem removeOwn_eq (j : Journal) :
    j.removeOwn = { j with handlers := j.handlers.filter fun h => some h.id ≠ j.own } := by
  cases hown : j.own with
  | none =>
    simp only [removeOwn, hown, ne_eq, reduceCtorEq, not_false_eq_true, decide_true,
      List.filter_true]
    rw [← hown]
  | some id =>
    have hfilter : j.handlers.filter (fun h => some h.id ≠ some id) =
        j.handlers.filter (·.id != id) := by
      refine List.filter_congr fun h _ => ?_
      rw [Bool.eq_iff_iff]
      simp
    simp only [removeOwn, hown, remove?, hfilter]
    split
    · rw [Option.getD_some, ← hown]
    · rename_i hnone
      have hall : j.handlers.filter (·.id != id) = j.handlers :=
        List.filter_eq_self.mpr fun h hh => by
          simp only [List.any_eq_true, not_exists, not_and] at hnone
          simpa using hnone h hh
      rw [hall, Option.getD_none, ← hown]

theorem defaultLevel_removeOwn (j : Journal) : j.removeOwn.defaultLevel = j.defaultLevel := by
  rw [removeOwn_eq]

/-- What the host takes away is what `configure` would take away. -/
theorem removeByHost_getD (j : Journal) : j.removeByHost.getD j = j.removeOwn := by
  unfold removeByHost removeOwn
  split <;> rfl

/-- The level of a call of `configure`: that of the name it is given, if there is one and it is not
empty, or else that of the setting. There is none for a name that is not known. -/
def levelOf? (name : Option String) (setting : String) : Option Level :=
  Level.ofName? (Text.upper ((name.filter (!·.isEmpty)).getD setting))

/-- A call of `configure` takes away its handler, and installs another if the level is known. -/
theorem configure_cases (j : Journal) (name : Option String) (trace : Option Bool)
    (sink : SinkId) :
    let j' := { j with trace := trace.getD j.trace }.removeOwn
    (levelOf? name j.defaultLevel = none ∧
        ∃ f, j.configure name trace sink = (.error f, j')) ∨
      ∃ level, levelOf? name j.defaultLevel = some level ∧
        j.configure name trace sink =
          (.ok (), { j'.add level sink line with own := some j'.nextId, enabled := true }) := by
  intro j'
  have hsetting : j'.defaultLevel = j.defaultLevel := defaultLevel_removeOwn _
  have hlevel : Level.ofName? (j'.requested name) = levelOf? name j.defaultLevel := by
    rw [← hsetting]
    rfl
  unfold configure
  simp only
  cases hknown : levelOf? name j.defaultLevel with
  | none =>
    rw [hknown] at hlevel
    exact .inl ⟨rfl, _, by rw [hlevel]⟩
  | some level =>
    rw [hknown] at hlevel
    exact .inr ⟨level, rfl, by rw [hlevel]⟩

theorem defaultLevel_configure (j : Journal) (name : Option String) (trace : Option Bool)
    (sink : SinkId) : (j.configure name trace sink).2.defaultLevel = j.defaultLevel := by
  rcases configure_cases j name trace sink with ⟨-, f, h⟩ | ⟨level, -, h⟩ <;>
    exact h ▸ defaultLevel_removeOwn _

/-- What holds of the handlers that are there and of a new one holds of all once it is added. -/
theorem forall_mem_add {j : Journal} {level : Level} {sink : SinkId}
    {format : Level → String → String → String} {P : Handler → Prop}
    (hold : ∀ h ∈ j.handlers, P h) (hnew : P ⟨j.nextId, level, sink, format⟩) :
    ∀ h ∈ (j.add level sink format).handlers, P h := by
  intro h hh
  rcases List.mem_append.mp hh with hh | hh
  · exact hold h hh
  · rwa [List.mem_singleton.mp hh]

/-- Among handlers with numbers of their own there is one with a given number. -/
theorem filter_id_eq {handlers : List Handler} (hnodup : (handlers.map (·.id)).Nodup) {k : Handler}
    (hk : k ∈ handlers) : handlers.filter (·.id = k.id) = [k] := by
  obtain ⟨before, after, rfl⟩ := List.append_of_mem hk
  rw [List.map_append, List.map_cons, List.nodup_middle, List.nodup_cons, List.mem_append] at hnodup
  have hothers (l : List Handler) (hl : k.id ∉ l.map (·.id)) : l.filter (·.id = k.id) = [] :=
    List.filter_eq_nil_iff.mpr fun h hh heq =>
      hl (List.mem_map.mpr ⟨h, hh, by simpa using heq⟩)
  rw [List.filter_append, List.filter_cons_of_pos (by simp), hothers before (hnodup.1 <| .inl ·),
    hothers after (hnodup.1 <| .inr ·), List.nil_append]

/-! ### The account of handlers -/

/-- A journal that nothing has been written to, where the host has its handlers already. -/
def newFor (hosts : Hosts) (trace : Bool) (setting : String) : Journal :=
  { new trace setting with handlers := hosts.handlers, nextId := hosts.nextId }

/-- The account of the handlers. `configure` has given the numbers in `installed`, the host has the
handlers in `hosts`, and if a handler of `configure` is there it has the level and sink in
`standing`. -/
structure Ledger (j : Journal) (installed : List HandlerId) (hosts : List Handler)
    (standing : Option (Level × SinkId)) : Prop where
  hosts_eq : j.handlers.filter (·.id ∉ installed) = hosts
  standing_eq :
    (j.handlers.filter (·.id ∈ installed)).map (fun h => (h.level, h.sink)) = standing.toList
  /-- Of the numbers that `configure` has given only the last one can be there. -/
  own_eq : ∀ h ∈ j.handlers, h.id ∈ installed → j.own = some h.id
  own_mem : ∀ id, j.own = some id → id ∈ installed
  /-- What `configure` has installed writes as it says. -/
  format_eq : ∀ h ∈ j.handlers, h.id ∈ installed → h.format = line
  handlers_lt : ∀ h ∈ j.handlers, h.id < j.nextId
  installed_lt : ∀ id ∈ installed, id < j.nextId
  nodup : (j.handlers.map (·.id)).Nodup
  enabled : standing ≠ none → j.enabled = true

namespace Ledger

variable {j : Journal} {installed : List HandlerId} {hosts : List Handler}
  {standing : Option (Level × SinkId)}

/-- At the start all handlers are the host's. -/
theorem newFor (hosts : Hosts) (trace : Bool) (setting : String) :
    (Journal.newFor hosts trace setting).Ledger [] hosts.handlers none where
  hosts_eq := List.filter_eq_self.mpr fun h _ => by simp
  standing_eq := by simp
  own_eq _ _ hid := nomatch hid
  own_mem _ hid := nomatch hid
  format_eq _ _ hid := nomatch hid
  handlers_lt := hosts.handlers_lt
  installed_lt _ hid := nomatch hid
  nodup := hosts.nodup
  enabled h := absurd rfl h

/-- The trace, the default level and the lines written do not matter. -/
theorem congr (w : j.Ledger installed hosts standing) {j' : Journal}
    (hhandlers : j'.handlers = j.handlers) (hown : j'.own = j.own) (hnext : j'.nextId = j.nextId)
    (henabled : j'.enabled = j.enabled) : j'.Ledger installed hosts standing where
  hosts_eq := by rw [hhandlers, w.hosts_eq]
  standing_eq := by rw [hhandlers, w.standing_eq]
  own_eq := by rw [hhandlers, hown]; exact w.own_eq
  own_mem := by rw [hown]; exact w.own_mem
  format_eq := by rw [hhandlers]; exact w.format_eq
  handlers_lt := by rw [hhandlers, hnext]; exact w.handlers_lt
  installed_lt := by rw [hnext]; exact w.installed_lt
  nodup := by rw [hhandlers]; exact w.nodup
  enabled := by rw [henabled]; exact w.enabled

/-- The handler that `configure` has installed is taken away, and none of the host's is. -/
theorem removeOwn (w : j.Ledger installed hosts standing) :
    j.removeOwn.Ledger installed hosts none := by
  rw [removeOwn_eq]
  have hsub : (j.handlers.filter fun h => some h.id ≠ j.own) ⊆ j.handlers :=
    List.filter_subset_self _
  refine { w with hosts_eq := ?_, standing_eq := ?_, nodup := ?_, enabled := ?_,
                  own_eq := fun h hh => w.own_eq h (hsub hh),
                  format_eq := fun h hh => w.format_eq h (hsub hh),
                  handlers_lt := fun h hh => w.handlers_lt h (hsub hh) }
  · rw [← w.hosts_eq, List.filter_filter]
    refine List.filter_congr fun h _ => ?_
    have hown : h.id ∉ installed → some h.id ≠ j.own := fun hid heq => hid (w.own_mem h.id heq.symm)
    simpa using hown
  · have hnone : (j.handlers.filter fun h => some h.id ≠ j.own).filter (·.id ∈ installed) = [] := by
      rw [List.filter_eq_nil_iff]
      intro h hh hid
      rw [List.mem_filter, decide_eq_true_eq] at hh
      exact hh.2 (w.own_eq h hh.1 (by simpa using hid)).symm
    rw [hnone]
    rfl
  · exact w.nodup.sublist (List.filter_sublist.map _)
  · intro hne
    exact absurd rfl hne

/-- The number of a new handler is not that of another one. -/
theorem nodup_add (w : j.Ledger installed hosts standing) (level : Level) (sink : SinkId)
    (format : Level → String → String → String) :
    ((j.add level sink format).handlers.map (·.id)).Nodup := by
  have hfresh : j.nextId ∉ j.handlers.map (·.id) := by
    intro hid
    obtain ⟨h, hh, heq⟩ := List.mem_map.mp hid
    exact Nat.ne_of_lt (w.handlers_lt h hh) heq
  simp only [add, List.map_append, List.map_cons, List.map_nil]
  exact List.nodup_append_comm.mpr (List.nodup_cons.mpr ⟨hfresh, w.nodup⟩)

theorem handlers_lt_add (w : j.Ledger installed hosts standing) (level : Level) (sink : SinkId)
    (format : Level → String → String → String) :
    ∀ h ∈ (j.add level sink format).handlers, h.id < j.nextId + 1 :=
  forall_mem_add (fun h hh => Nat.lt_succ_of_lt (w.handlers_lt h hh)) (Nat.lt_succ_self _)

/-- A handler is installed where there is none of `configure`. -/
theorem install (w : j.Ledger installed hosts none) (level : Level) (sink : SinkId) :
    Ledger { j.add level sink line with own := some j.nextId, enabled := true }
      (j.nextId :: installed) hosts (some (level, sink)) := by
  have hold (h : Handler) (hh : h ∈ j.handlers) :
      h.id ∈ j.nextId :: installed ↔ h.id ∈ installed := by
    rw [List.mem_cons, or_iff_right (Nat.ne_of_lt (w.handlers_lt h hh))]
  have hnone : j.handlers.filter (·.id ∈ installed) = [] := by
    simpa using w.standing_eq
  have htheirs : ∀ h ∈ j.handlers, h.id ∉ j.nextId :: installed := by
    intro h hh hid
    have hmem : h ∈ j.handlers.filter (·.id ∈ installed) :=
      List.mem_filter.mpr ⟨hh, by simpa using (hold h hh).mp hid⟩
    rw [hnone] at hmem
    cases hmem
  refine { handlers_lt := w.handlers_lt_add level sink line, nodup := w.nodup_add level sink line,
           own_eq := forall_mem_add (fun h hh hid => absurd hid (htheirs h hh)) fun _ => rfl,
           format_eq := forall_mem_add (fun h hh hid => absurd hid (htheirs h hh)) fun _ => rfl,
           hosts_eq := ?_, standing_eq := ?_, own_mem := ?_, installed_lt := ?_,
           enabled := fun _ => rfl }
  · simp only [add, List.filter_append]
    rw [List.filter_cons_of_neg (by simp), List.filter_nil, List.append_nil, ← w.hosts_eq]
    exact List.filter_congr fun h hh => by simp only [hold h hh]
  · have hsame : j.handlers.filter (·.id ∈ j.nextId :: installed) = [] :=
      List.filter_eq_nil_iff.mpr fun h hh => by simpa using htheirs h hh
    simp only [add, List.filter_append]
    rw [hsame, List.filter_cons_of_pos (by simp)]
    rfl
  · rintro id ⟨⟩
    exact List.mem_cons_self
  · intro id hid
    rcases List.mem_cons.mp hid with rfl | hid
    · exact Nat.lt_succ_self _
    · exact Nat.lt_succ_of_lt (w.installed_lt id hid)

/-- The host adds a handler. -/
theorem addHost (w : j.Ledger installed hosts standing) (level : Level) (sink : SinkId)
    (format : Level → String → String → String) :
    (j.add level sink format).Ledger installed (hosts ++ [⟨j.nextId, level, sink, format⟩])
      standing := by
  have hfresh : j.nextId ∉ installed := fun hid => Nat.lt_irrefl _ (w.installed_lt _ hid)
  refine { w with handlers_lt := w.handlers_lt_add level sink format,
                  nodup := w.nodup_add level sink format,
                  own_eq := forall_mem_add w.own_eq fun hid => absurd hid hfresh,
                  format_eq := forall_mem_add w.format_eq fun hid => absurd hid hfresh,
                  hosts_eq := ?_, standing_eq := ?_, installed_lt := ?_ }
  · simp only [add, List.filter_append]
    rw [w.hosts_eq, List.filter_cons_of_pos (by simpa using hfresh), List.filter_nil]
  · simp only [add, List.filter_append]
    rw [List.filter_cons_of_neg (by simpa using hfresh), List.filter_nil, List.append_nil,
      w.standing_eq]
  · intro id hid
    exact Nat.lt_succ_of_lt (w.installed_lt id hid)

end Ledger

/-! ### Where lines go -/

/-- Does a handler of this level and sink, if there is one, write the message to the sink? -/
def isFor (standing : Option (Level × SinkId)) (sink : SinkId) (m : Message) : Bool :=
  match standing with
  | none => false
  | some (least, s) => s = sink && least.rank ≤ m.level.rank

namespace Ledger

variable {j j' : Journal} {installed : List HandlerId} {hosts : List Handler}
  {standing : Option (Level × SinkId)} {messages : List Message}

/-- On a sink `configure` has one handler if the one that stands is for it, and none otherwise. -/
theorem handlers_on_sink (w : j.Ledger installed hosts standing) (sink : SinkId) :
    let ours := j.handlers.filter fun h => h.sink = sink ∧ h.id ∈ installed
    (ours = [] ∧ ∀ m, isFor standing sink m = false) ∨
      j.enabled = true ∧ ∃ h ∈ j.handlers, ours = [h] ∧ h.format = line ∧
        ∀ m, isFor standing sink m = h.takes m.level := by
  intro ours
  have hours : ours = (j.handlers.filter (·.id ∈ installed)).filter (·.sink = sink) := by
    rw [List.filter_filter]
    exact List.filter_congr fun h _ => Bool.decide_and ..
  rw [hours]
  have hstanding := w.standing_eq
  have hmem (h : Handler) (hh : h ∈ j.handlers.filter (·.id ∈ installed)) :
      h ∈ j.handlers ∧ h.format = line := by
    obtain ⟨hin, hid⟩ := List.mem_filter.mp hh
    exact ⟨hin, w.format_eq h hin (by simpa using hid)⟩
  generalize j.handlers.filter (·.id ∈ installed) = live at hstanding hmem
  match standing, live, hstanding, w.enabled with
  | none, [], _, _ => exact .inl ⟨rfl, fun _ => rfl⟩
  | some (least, s), [h], hstanding, henabled =>
    obtain ⟨rfl, rfl⟩ : h.level = least ∧ h.sink = s := by simpa using hstanding
    by_cases hsink : h.sink = sink
    · refine .inr ⟨henabled nofun, h, (hmem h List.mem_cons_self).1, ?_,
        (hmem h List.mem_cons_self).2, fun m => ?_⟩
      · rw [List.filter_cons_of_pos (by simpa using hsink), List.filter_nil]
      · simp [isFor, hsink, Handler.takes]
    · refine .inl ⟨?_, fun m => ?_⟩
      · rw [List.filter_cons_of_neg (by simpa using hsink), List.filter_nil]
      · simp [isFor, hsink]

/-- **What `configure` has written**: each message that the handler of `configure` takes is written
by it once to its sink, in order, and no other message is written by a handler of `configure`. -/
theorem forall₂_isWrittenAs (w : j.Ledger installed hosts standing) (h : j.Takes messages j')
    (sink : SinkId) :
    List.Forall₂ Message.IsWrittenAs (messages.filter (isFor standing sink))
      (((messages.flatMap j.entriesFor).filter fun e =>
        e.sink = sink ∧ e.handler ∈ installed).map (·.line)) := by
  rw [filter_entries (p := fun h => decide (h.sink = sink ∧ h.id ∈ installed))
    fun _ _ _ _ => rfl]
  rcases w.handlers_on_sink sink with ⟨hnone, hfor⟩ | ⟨henabled, k, hk, hone, hformat, hfor⟩
  · rw [entries_of_no_handlers hnone, List.filter_eq_nil_iff.mpr fun m _ => by simp [hfor m]]
    exact .nil
  · have hwrites := forall₂_writes (j := { j with
        handlers := j.handlers.filter fun h => h.sink = sink ∧ h.id ∈ installed }) henabled hone
      fun m hm htakes => h.1 m hm (wants_of_mem henabled hk htakes)
    rw [show isFor standing sink = (k.takes ·.level) from funext hfor, List.forall₂_map_right_iff]
    refine hwrites.imp fun m e => ?_
    rintro ⟨t, ht, rfl⟩
    exact ⟨t, ht, by rw [Handler.entry, hformat]⟩

/-- **What the host has written**: as soon as anything is written, each handler of the host writes
each message that it takes, once and in order. -/
theorem forall₂_writes_host (w : j.Ledger installed hosts standing) (h : j.Takes messages j')
    {k : Handler} (hk : k ∈ hosts) :
    List.Forall₂ k.Writes (if j.enabled then messages.filter (k.takes ·.level) else [])
      ((messages.flatMap j.entriesFor).filter (·.handler = k.id)) := by
  have hin : k ∈ j.handlers := by
    rw [← w.hosts_eq] at hk
    exact List.mem_of_mem_filter hk
  split
  · rename_i henabled
    have hone := filter_id_eq w.nodup hin
    rw [filter_entries (p := fun h => decide (h.id = k.id)) fun _ _ _ _ => rfl]
    exact forall₂_writes henabled hone fun m hm htakes => h.1 m hm (wants_of_mem henabled hin htakes)
  · rename_i hnot
    have hnone : messages.flatMap j.entriesFor = [] := by
      rw [List.flatMap_eq_nil_iff]
      exact fun m _ => entriesFor_of_not_enabled (by simpa using hnot) m
    rw [hnone]
    exact .nil

/-- Nobody else writes. -/
theorem handler_mem (w : j.Ledger installed hosts standing) {e : Entry}
    (he : e ∈ messages.flatMap j.entriesFor) :
    e.handler ∈ installed ∨ ∃ h ∈ hosts, e.handler = h.id := by
  obtain ⟨h, hh, heq⟩ := exists_handler_of_mem he
  rw [heq, or_iff_not_imp_left]
  intro hid
  refine ⟨h, ?_, rfl⟩
  rw [← w.hosts_eq]
  exact List.mem_filter.mpr ⟨hh, by simpa using hid⟩

end Ledger

end Journal

end LeafGrammar
