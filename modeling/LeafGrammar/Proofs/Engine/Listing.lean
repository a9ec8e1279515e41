import LeafGrammar.Pattern.Matcher
import LeafGrammar.Proofs.Engine.Tracing

/-!
# A trace lists the derivation

A run applies nodes, and each application applies the children that it needs, one after the other.
`Node.demand` says which: it takes the results of the children so far and tells which child is
applied next, or how the application ends. It knows of no stack.

The listing of an application goes through this tree in depth: first the visit of the node, then
for each child its own listing and its result. `Lists` collects what the children add,
`IsListing` is the listing of an application that has a result, and `Begins` a listing that has
been broken off somewhere. What a run with a trace has reported is always such a beginning, and
where the run ends with a result it is the listing of what has been derived
(`trace_lists_derivation`).

The stack of the machine holds the applications that are not over yet, each with the results it
has so far. `Open` ties the two together, and one move keeps it (`recorded_step`).
-/

namespace LeafGrammar

open Machine

/-! ### What an application does next -/

/-- An application applies a child at an offset, or it ends. -/
inductive Demand where
  | apply (child : Node) (pos : Integral)
  | finish (e : Finish)

/-- What a repetition does that has made `count` rounds, which gave `tokens` and ended at `cur`,
once it has the results of some further rounds. -/
def roundsDemand (child : Node) (least : Integral) (most : Option Integral) (tokens : List Value)
    (cur : Integral) (count : Nat) (results : List Result) : Demand :=
  if mayGoOn most count then
    match results with
    | [] => .apply child cur
    | .failure .. :: _ => .finish (.ofRounds least tokens cur count)
    | .success round q :: rest =>
      if q.toInt = cur.toInt then
        match most with
        | none => .finish (.ok (.success (tokens ++ round) cur))
        | some m => .finish (.ofSettled least m (tokens ++ round) round cur (count + 1))
      else roundsDemand child least most (tokens ++ round) q (count + 1) rest
  else .finish (.ofRounds least tokens cur count)

/-- What the application of a node at `pos` does, once it has the results of the children that it
has applied so far. -/
def Node.demand (slots : Slots) (text : List Char) (pos : Integral) (results : List Result) :
    Node → Demand
  | .leaf _ p => .finish (.ok (leafResult p text pos))
  | .empty _ => .finish (.ok (.success [] pos))
  | .seq _ l r =>
    match results with
    | [] => .apply l pos
    | .failure q c :: _ => .finish (.ok (.failure q c))
    | .success _ q :: [] => .apply r q
    | .success tokens _ :: second :: _ => .finish (Finish.after tokens (.ok second))
  | .choice _ l r =>
    match results with
    | [] => .apply l pos
    | .success tokens q :: _ => .finish (.ok (.success tokens q))
    | .failure .. :: [] => .apply r pos
    | .failure .. :: second :: _ => .finish (.ok second)
  | .rep _ child least most => roundsDemand child least most [] pos 0 results
  | .map _ child action =>
    match results with
    | [] => .apply child pos
    | .failure q c :: _ => .finish (.ok (.failure q c))
    | .success tokens q :: _ =>
      .finish ((action.newTokens tokens).map (.success · q))
  | .splice _ base slot =>
    match results with
    | [] => .apply base pos
    | .failure q c :: _ => .finish (.ok (.failure q c))
    | .success tokens q :: more =>
      match slots.target? slot with
      | none => .finish (.error (.grammar .reachedUnresolved))
      | some target =>
        match more with
        | [] => .apply target q
        | second :: _ => .finish (Finish.after tokens (.ok second))

/-! ### Listings -/

/-- `Lists slots text n pos results records`: applied at `pos`, the node has applied children with
these results, and each of them has added its visit, what its own children have added, and its
result. -/
inductive Lists (slots : Slots) (text : List Char) :
    Node → Integral → List Result → List Record → Prop where
  | nil {n : Node} {pos : Integral} : Lists slots text n pos [] []
  | snoc {n c : Node} {pos q : Integral} {results below : List Result} {r : Result}
      {records inner : List Record} :
      Lists slots text n pos results records →
        n.demand slots text pos results = .apply c q →
          Lists slots text c q below inner → c.demand slots text q below = .finish (.ok r) →
            Lists slots text n pos (results ++ [r])
              (records ++ (.visit c q :: inner ++ [.result r]))

/-- The listing of an application that ends with a result: its visit and what its children add. -/
def IsListing (slots : Slots) (text : List Char) (n : Node) (pos : Integral) (r : Result)
    (records : List Record) : Prop :=
  ∃ results inner, Lists slots text n pos results inner ∧
    n.demand slots text pos results = .finish (.ok r) ∧ records = .visit n pos :: inner

/-- `Begins slots text n pos records`: the listing of the application begins like this. It is
broken off in the application itself, or in a child that it has applied last. -/
inductive Begins (slots : Slots) (text : List Char) : Node → Integral → List Record → Prop where
  | here {n : Node} {pos : Integral} {results : List Result} {inner : List Record} :
      Lists slots text n pos results inner → Begins slots text n pos (.visit n pos :: inner)
  | inside {n c : Node} {pos q : Integral} {results : List Result} {inner records : List Record} :
      Lists slots text n pos results inner → n.demand slots text pos results = .apply c q →
        Begins slots text c q records → Begins slots text n pos (.visit n pos :: inner ++ records)

namespace Machine

/-- Is it the record of a visit? -/
def Record.isVisit : Record → Bool
  | .visit .. => true
  | .result _ => false

/-- How many applications have been reported. -/
def visitCount (records : List Record) : Nat := records.countP (·.isVisit)

/-- How many results have been reported. -/
def resultCount (records : List Record) : Nat := records.countP (!·.isVisit)

@[simp] theorem visitCount_nil : visitCount [] = 0 := rfl

@[simp] theorem visitCount_visit (n : Node) (pos : Integral) (records : List Record) :
    visitCount (.visit n pos :: records) = visitCount records + 1 := by
  simp [visitCount, Record.isVisit]

@[simp] theorem visitCount_result (r : Result) (records : List Record) :
    visitCount (.result r :: records) = visitCount records := by
  simp [visitCount, Record.isVisit]

@[simp] theorem visitCount_append (front back : List Record) :
    visitCount (front ++ back) = visitCount front + visitCount back := List.countP_append

@[simp] theorem resultCount_nil : resultCount [] = 0 := rfl

@[simp] theorem resultCount_visit (n : Node) (pos : Integral) (records : List Record) :
    resultCount (.visit n pos :: records) = resultCount records := by
  simp [resultCount, Record.isVisit]

@[simp] theorem resultCount_result (r : Result) (records : List Record) :
    resultCount (.result r :: records) = resultCount records + 1 := by
  simp [resultCount, Record.isVisit]

@[simp] theorem resultCount_append (front back : List Record) :
    resultCount (front ++ back) = resultCount front + resultCount back := List.countP_append

end Machine

variable {slots : Slots} {text : List Char} {n root : Node} {pos start : Integral}

/-- Children that are over have added as many visits as results. -/
theorem Lists.visitCount_eq {results : List Result} {records : List Record}
    (h : Lists slots text n pos results records) : visitCount records = resultCount records := by
  induction h with
  | nil => rfl
  | snoc _ _ _ _ ih ihc =>
    simp only [visitCount_append, visitCount_visit, visitCount_result, visitCount_nil,
      resultCount_append, resultCount_visit, resultCount_result, resultCount_nil,
      List.cons_append]
    omega

/-- In a beginning more applications are open than over. -/
theorem Begins.resultCount_lt {records : List Record} (h : Begins slots text n pos records) :
    resultCount records < visitCount records := by
  induction h with
  | here hl =>
    have heq := hl.visitCount_eq
    simp only [resultCount_visit, visitCount_visit]
    omega
  | inside hl _ _ ih =>
    have heq := hl.visitCount_eq
    simp only [List.cons_append, resultCount_visit, visitCount_visit, resultCount_append,
      visitCount_append]
    omega

/-- The root alone has no result in its listing. -/
theorem IsListing.visitCount_eq {r : Result} {records : List Record}
    (h : IsListing slots text n pos r records) :
    visitCount records = resultCount records + 1 := by
  obtain ⟨results, inner, hl, -, rfl⟩ := h
  rw [visitCount_visit, resultCount_visit, hl.visitCount_eq]

namespace Machine

/-! ### The machine does what is demanded -/

/-- The frame waits, on behalf of an application of the node at `pos` that has these results so
far, for the result of the child that is applied next. -/
inductive Frame.StandsFor (slots : Slots) (text : List Char) :
    Frame → Node → Integral → List Result → Prop where
  | seqLeft {id : NodeId} {l r : Node} {pos : Integral} :
      StandsFor slots text (.seqLeft r) (.seq id l r) pos []
  | seqRight {id : NodeId} {l r : Node} {pos q : Integral} {tokens : List Value} :
      StandsFor slots text (.seqRight tokens) (.seq id l r) pos [.success tokens q]
  | choiceLeft {id : NodeId} {l r : Node} {pos : Integral} :
      StandsFor slots text (.choiceLeft r pos) (.choice id l r) pos []
  | choiceRight {id : NodeId} {l r : Node} {pos q : Integral} {c : Option Complaint} :
      StandsFor slots text .choiceRight (.choice id l r) pos [.failure q c]
  /-- The rounds so far have led to what the frame holds. -/
  | rep {id : NodeId} {child : Node} {least : Integral} {most : Option Integral}
      {tokens : List Value} {pos cur : Integral} {count : Nat} {results : List Result} :
      (∀ more, roundsDemand child least most [] pos 0 (results ++ more) =
        roundsDemand child least most tokens cur count more) →
        mayGoOn most count = true →
          StandsFor slots text (.rep child least most tokens cur count)
            (.rep id child least most) pos results
  | map {id : NodeId} {child : Node} {action : Action} {pos : Integral} :
      StandsFor slots text (.map action) (.map id child action) pos []
  | spliceBase {id : NodeId} {base : Node} {slot : SlotId} {pos : Integral} :
      StandsFor slots text (.spliceBase slot) (.splice id base slot) pos []
  | spliceTarget {id : NodeId} {base target : Node} {slot : SlotId} {pos q : Integral}
      {tokens : List Value} : slots.target? slot = some target →
      StandsFor slots text (.spliceTarget tokens) (.splice id base slot) pos [.success tokens q]

/-- The move does what the application demands: it visits the child, with a frame that stands for
the application, or hands the ending to the stack. -/
def Serves (slots : Slots) (text : List Char) (n : Node) (pos : Integral) (results : List Result)
    (stack : List Frame) (m : Move) : Prop :=
  match n.demand slots text pos results with
  | .apply child q => ∃ frame, frame.StandsFor slots text n pos results ∧
      m = .next (.visit child q (frame :: stack))
  | .finish e => m = e.give stack

theorem Serves.eq_visit {results : List Result} {stack : List Frame} {m : Move} {c : Node}
    {q : Integral} (h : Serves slots text n pos results stack m)
    (hd : n.demand slots text pos results = .apply c q) :
    ∃ frame, frame.StandsFor slots text n pos results ∧
      m = .next (.visit c q (frame :: stack)) := by
  rwa [Serves, hd] at h

theorem Serves.eq_give {results : List Result} {stack : List Frame} {m : Move} {e : Finish}
    (h : Serves slots text n pos results stack m)
    (hd : n.demand slots text pos results = .finish e) : m = e.give stack := by
  rwa [Serves, hd] at h

/-- A repetition goes on as its rounds so far demand. -/
theorem serves_continueRep {id : NodeId} {child : Node} {least : Integral}
    {most : Option Integral} {tokens : List Value} {cur : Integral} {count : Nat}
    {results : List Result} (stack : List Frame)
    (h : ∀ more, roundsDemand child least most [] pos 0 (results ++ more) =
      roundsDemand child least most tokens cur count more) :
    Serves slots text (.rep id child least most) pos results stack
      (continueRep child least most tokens cur count stack) := by
  have hd : (Node.rep id child least most).demand slots text pos results =
      roundsDemand child least most tokens cur count [] := by
    simpa [Node.demand] using h []
  rw [Serves, hd, continueRep, roundsDemand.eq_def]
  cases hgo : mayGoOn most count with
  | true => exact ⟨_, .rep h hgo, rfl⟩
  | false => exact finishRep_eq ..

/-- A node that is entered does what it demands first. -/
theorem serves_enter (n : Node) (pos : Integral) (stack : List Frame) :
    Serves slots text n pos [] stack (enter text n pos stack) := by
  cases n with
  | leaf id p => exact rfl
  | empty id => exact rfl
  | seq id l r => exact ⟨_, .seqLeft, rfl⟩
  | choice id l r => exact ⟨_, .choiceLeft, rfl⟩
  | rep id child least most => exact serves_continueRep stack fun _ => rfl
  | map id child action => exact ⟨_, .map, rfl⟩
  | splice id base slot => exact ⟨_, .spliceBase, rfl⟩

/-- A frame that is handed a result does what its application demands with one result more. -/
theorem serves_resume {frame : Frame} {results : List Result}
    (h : frame.StandsFor slots text n pos results) (r : Result) (stack : List Frame) :
    Serves slots text n pos (results ++ [r]) stack (resume slots frame r stack) := by
  cases h with
  | seqLeft =>
    cases r with
    | success tokens q => exact ⟨_, .seqRight, rfl⟩
    | failure q c => exact rfl
  | @seqRight id l _ _ q tokens =>
    have hholds : (Frame.seqRight tokens).holds tokens := rfl
    exact resume_of_holds slots hholds r stack
  | choiceLeft =>
    cases r with
    | success tokens q => exact rfl
    | failure q c => exact ⟨_, .choiceRight, rfl⟩
  | choiceRight => cases r <;> exact rfl
  | @rep id child least most tokens _ cur count _ hrounds hgo =>
    cases r with
    | failure q c =>
      rw [Serves, Node.demand, hrounds, roundsDemand.eq_def, if_pos hgo]
      exact finishRep_eq ..
    | success round q =>
      by_cases hq : q.toInt = cur.toInt
      · -- the last round: its tokens settle what all the others would give
        rw [Serves, Node.demand, hrounds, roundsDemand.eq_def, if_pos hgo]
        simp only [resume, if_pos hq]
        cases most with
        | none => exact rfl
        | some m => exact settleRep_some_eq ..
      · simp only [resume, if_neg hq]
        refine serves_continueRep stack fun more => ?_
        have hround := hrounds (.success round q :: more)
        rw [List.append_assoc, List.singleton_append, hround, roundsDemand.eq_def, if_pos hgo]
        simp only [if_neg hq]
  | map =>
    cases r with
    | success tokens q => exact newTokens_eq ..
    | failure q c => exact rfl
  | @spliceBase id base slot =>
    cases r with
    | success tokens q =>
      cases hslot : slots.target? slot with
      | none => simp [Serves, Node.demand, resume, hslot, Finish.give]
      | some target =>
        have hd : (Node.splice id base slot).demand slots text pos [.success tokens q] =
            .apply target q := by simp [Node.demand, hslot]
        rw [List.nil_append, Serves, hd]
        exact ⟨_, .spliceTarget hslot, by simp [resume, hslot]⟩
    | failure q c => exact rfl
  | @spliceTarget id base target slot _ q tokens hslot =>
    have hd : (Node.splice id base slot).demand slots text pos [.success tokens q, r] =
        .finish (Finish.after tokens (.ok r)) := by simp [Node.demand, hslot]
    have hholds : (Frame.spliceTarget tokens).holds tokens := rfl
    rw [List.singleton_append, Serves, hd]
    exact resume_of_holds slots hholds r stack

/-! ### What is reported on the way -/

/-- `Reports slots text m records m'`: from the move `m` the machine comes to the move `m'`, and
these are the records of the states on the way. -/
inductive Reports (slots : Slots) (text : List Char) : Move → List Record → Move → Prop where
  | refl {m : Move} : Reports slots text m [] m
  | head {s : State} {records : List Record} {m : Move} :
      Reports slots text (step slots text s) records m →
        Reports slots text (.next s) (s.record?.toList ++ records) m

namespace Reports

variable {m m' m'' : Move} {records more : List Record}

theorem trans (h : Reports slots text m records m') (h' : Reports slots text m' more m'') :
    Reports slots text m (records ++ more) m'' := by
  induction h with
  | refl => exact h'
  | head _ ih =>
    rw [List.append_assoc]
    exact .head (ih h')

/-- What is reported first is reported by a shorter run. -/
theorem exists_of_prefix (h : Reports slots text m records m') {front : List Record}
    (hf : front <+: records) : ∃ m'', Reports slots text m front m'' := by
  induction h generalizing front with
  | refl =>
    rw [List.prefix_nil.mp hf]
    exact ⟨_, .refl⟩
  | @head s records m _ ih =>
    cases hrecord : s.record? with
    | none =>
      rw [hrecord] at hf
      obtain ⟨m'', hm⟩ := ih hf
      exact ⟨m'', by simpa [hrecord] using Reports.head (s := s) hm⟩
    | some record =>
      rw [hrecord, Option.toList_some, List.singleton_append, List.prefix_cons_iff] at hf
      rcases hf with rfl | ⟨front, rfl, hf⟩
      · exact ⟨_, .refl⟩
      · obtain ⟨m'', hm⟩ := ih hf
        exact ⟨m'', by simpa [hrecord] using Reports.head (s := s) hm⟩

/-- Whatever is reported is the first part of what is reported up to the end. -/
theorem prefix_of_done {r : Result} (h : Reports slots text m records m')
    (hall : Reports slots text m more (.done r)) : records <+: more := by
  induction h generalizing more with
  | refl => exact List.nil_prefix
  | head _ ih =>
    cases hall with
    | head hall => exact (List.prefix_append_right_inj _).mpr (ih hall)

theorem exists_halts {r : Result} (h : Reports slots text m records (.done r)) :
    ∃ k, Halts slots text k m (.ok r) := by
  generalize hm : Move.done r = m' at h
  induction h with
  | refl =>
    subst hm
    exact ⟨0, .done⟩
  | head _ ih =>
    obtain ⟨k, hk⟩ := ih hm
    exact ⟨k + 1, .next hk⟩

end Reports

theorem Halts.exists_reports {k : Nat} {m : Move} {r : Result}
    (h : Halts slots text k m (.ok r)) : ∃ records, Reports slots text m records (.done r) := by
  generalize he : (Except.ok r : Finish) = e at h
  induction h with
  | done =>
    cases he
    exact ⟨[], .refl⟩
  | raised => cases he
  | next _ ih =>
    obtain ⟨records, hr⟩ := ih he
    exact ⟨_, .head hr⟩

/-! ### From listings to the machine -/

/-- **The machine reports what is listed**: once the children are over it does what the
application demands with their results. -/
theorem exists_reports_of_lists {results : List Result} {inner : List Record}
    (h : Lists slots text n pos results inner) (stack : List Frame) :
    ∃ m, Serves slots text n pos results stack m ∧
      Reports slots text (.next (.visit n pos stack)) (.visit n pos :: inner) m := by
  induction h generalizing stack with
  | nil => exact ⟨_, serves_enter _ _ stack, .head .refl⟩
  | @snoc n c pos q results below r records inner _ hc _ hr ih ihc =>
    obtain ⟨m, hm, hbefore⟩ := ih stack
    obtain ⟨frame, hframe, rfl⟩ := hm.eq_visit hc
    obtain ⟨m, hm, hchild⟩ := ihc (frame :: stack)
    obtain rfl := hm.eq_give hr
    have hgive : Reports slots text (.next (.give r (frame :: stack))) [.result r]
        (resume slots frame r stack) := .head .refl
    exact ⟨_, serves_resume hframe r stack, hbefore.trans (hchild.trans hgive)⟩

theorem reports_of_isListing {r : Result} {records : List Record}
    (h : IsListing slots text n pos r records) :
    Reports slots text (.next (.visit n pos [])) records (.done r) := by
  obtain ⟨results, inner, hl, hd, rfl⟩ := h
  obtain ⟨m, hm, hreports⟩ := exists_reports_of_lists hl []
  obtain rfl := hm.eq_give hd
  have hdone : Reports slots text (.next (.give r [])) [] (.done r) := .head .refl
  simpa using hreports.trans hdone

/-! ### From the machine to listings -/

/-- `Open slots text root start n pos stack before`: the node has been reached on top of the stack
by a run that applies `root` at `start`. The frames stand for the applications around it, and
these records have been reported before its visit. -/
inductive Open (slots : Slots) (text : List Char) (root : Node) (start : Integral) :
    Node → Integral → List Frame → List Record → Prop where
  | root : Open slots text root start root start [] []
  | child {n c : Node} {pos q : Integral} {frame : Frame} {stack : List Frame}
      {results : List Result} {before inner : List Record} :
      Open slots text root start n pos stack before → Lists slots text n pos results inner →
        frame.StandsFor slots text n pos results →
          n.demand slots text pos results = .apply c q →
            Open slots text root start c q (frame :: stack) (before ++ .visit n pos :: inner)

/-- An application that has had these results so far and now ends so. -/
def Ending (slots : Slots) (text : List Char) (root : Node) (start : Integral) (e : Finish)
    (stack : List Frame) (records : List Record) : Prop :=
  ∃ n pos results before inner, Open slots text root start n pos stack before ∧
    Lists slots text n pos results inner ∧ n.demand slots text pos results = .finish e ∧
      records = before ++ .visit n pos :: inner

/-- The records are those of a run that has come to the move. -/
def Move.Recorded (slots : Slots) (text : List Char) (root : Node) (start : Integral)
    (records : List Record) : Move → Prop
  | .next (.visit n pos stack) => Open slots text root start n pos stack records
  | .next (.give r stack) => Ending slots text root start (.ok r) stack records
  | .done r => IsListing slots text root start r records
  | .raised f => ∃ stack, Ending slots text root start (.error f) stack records

/-- A move that does what an open application demands. -/
theorem Open.recorded {stack : List Frame} {results : List Result} {before inner : List Record}
    {m : Move} (h : Open slots text root start n pos stack before)
    (hl : Lists slots text n pos results inner) (hm : Serves slots text n pos results stack m) :
    m.Recorded slots text root start (before ++ .visit n pos :: inner) := by
  cases hd : n.demand slots text pos results with
  | apply c q =>
    obtain ⟨frame, hframe, rfl⟩ := hm.eq_visit hd
    exact .child h hl hframe hd
  | finish e =>
    obtain rfl := hm.eq_give hd
    have hending : Ending slots text root start e stack (before ++ .visit n pos :: inner) :=
      ⟨n, pos, results, before, inner, h, hl, hd, rfl⟩
    cases e with
    | error f => exact ⟨stack, hending⟩
    | ok r => exact hending

/-- One move adds the record of its state. -/
theorem recorded_step {s : State} {records : List Record}
    (h : (Move.next s).Recorded slots text root start records) :
    (step slots text s).Recorded slots text root start (records ++ s.record?.toList) := by
  match s with
  | .visit n pos stack =>
    have hopen : Open slots text root start n pos stack records := h
    exact hopen.recorded .nil (serves_enter n pos stack)
  | .give r [] =>
    obtain ⟨n, pos, results, before, inner, hopen, hl, hd, rfl⟩ := h
    cases hopen
    exact ⟨results, inner, hl, hd, by simp [State.record?]⟩
  | .give r (frame :: stack) =>
    obtain ⟨c, q, below, before, inner, hopen, hl, hd, rfl⟩ := h
    cases hopen with
    | @child n _ pos _ _ _ results before records hparent hbefore hframe hc =>
      have hnext : Lists slots text n pos (results ++ [r])
          (records ++ (.visit c q :: inner ++ [.result r])) := .snoc hbefore hc hl hd
      simpa [State.record?, step] using hparent.recorded hnext (serves_resume hframe r stack)

/-- So every run is recorded. -/
theorem Reports.recorded {m m' : Move} {records more : List Record}
    (h : Reports slots text m more m') (hm : m.Recorded slots text root start records) :
    m'.Recorded slots text root start (records ++ more) := by
  induction h generalizing records with
  | refl => simpa using hm
  | head _ ih => simpa using ih (recorded_step hm)

theorem recorded_of_reports {records : List Record} {m : Move}
    (h : Reports slots text (.next (.visit n pos [])) records m) :
    m.Recorded slots text n pos records := by
  have hopen : Open slots text n pos n pos [] [] := .root
  have hstart : (Move.next (.visit n pos [])).Recorded slots text n pos [] := hopen
  simpa using h.recorded hstart

/-- A listing of an open application begins the listing of the root. -/
theorem Open.begins {stack : List Frame} {before records : List Record}
    (h : Open slots text root start n pos stack before) (hn : Begins slots text n pos records) :
    Begins slots text root start (before ++ records) := by
  induction h generalizing records with
  | root => exact hn
  | child _ hl _ hc ih => simpa using ih (.inside hl hc hn)

theorem Open.begins_before {stack : List Frame} {before : List Record}
    (h : Open slots text root start n pos stack before) (hne : before ≠ []) :
    Begins slots text root start before := by
  cases h with
  | root => exact absurd rfl hne
  | child hparent hl _ _ => exact hparent.begins (.here hl)

theorem Ending.begins {e : Finish} {stack : List Frame} {records : List Record}
    (h : Ending slots text root start e stack records) :
    Begins slots text root start records := by
  obtain ⟨n, pos, results, before, inner, hopen, hl, -, rfl⟩ := h
  exact hopen.begins (.here hl)

/-- Whatever has been reported begins the listing of the root. -/
theorem Move.Recorded.begins {m : Move} {records : List Record}
    (h : m.Recorded slots text root start records) (hne : records ≠ []) :
    Begins slots text root start records := by
  match m, h with
  | .next (.visit n pos stack), h => exact Open.begins_before h hne
  | .next (.give r stack), h => exact Ending.begins h
  | .raised f, ⟨stack, h⟩ => exact Ending.begins h
  | .done r, ⟨results, inner, hl, _, heq⟩ =>
    rw [heq]
    exact .here hl

end Machine

/-! ### Listings and derivations -/

theorem IsListing.unique {r : Result} {records others : List Record}
    (h : IsListing slots text n pos r records) (h' : IsListing slots text n pos r others) :
    records = others :=
  have hfront := (reports_of_isListing h).prefix_of_done (reports_of_isListing h')
  have hback := (reports_of_isListing h').prefix_of_done (reports_of_isListing h)
  hfront.eq_of_length_le hback.length_le

/-- What can be listed up to a result is what is derived. -/
theorem derives_iff_exists_isListing {r : Result} :
    Derives slots text (.node n pos) (.ok r) ↔ ∃ records, IsListing slots text n pos r records := by
  constructor
  · intro hd
    obtain ⟨fuel, hrun⟩ := exists_evaluate_eq_iff.mpr hd
    obtain ⟨records, hreports⟩ := (run_eq_ofExcept_iff.mp hrun).exists_reports
    exact ⟨records, recorded_of_reports hreports⟩
  · rintro ⟨records, hlisting⟩
    obtain ⟨fuel, hhalts⟩ := (reports_of_isListing hlisting).exists_halts
    exact exists_evaluate_eq_iff.mp ⟨fuel, run_eq_ofExcept_iff.mpr hhalts⟩

/-! ### What reaches the journal -/

namespace Machine

/-- A record as a message. -/
def Record.message (record : Record) : Message := ⟨.trace, "evaluate", record.text⟩

/-- The records that a run with a trace reports on its first moves. -/
def reported (slots : Slots) (text : List Char) : Nat → State → Journal → List Record
  | 0, _, _ => []
  | fuel + 1, s, j =>
    match s.report j with
    | .error _ => []
    | .ok j =>
      s.record?.toList ++
        match step slots text s with
        | .next s => reported slots text fuel s j
        | .done _ | .raised _ => []

/-- A record that has been reported is taken by the journal. -/
theorem Record.takes_of_report {record : Record} {j j' : Journal}
    (h : record.report j = .ok j') : j.Takes [record.message] j' := by
  rcases Record.report_cases h with ⟨t, ht, rfl⟩ | ⟨hwants, rfl⟩
  · rw [Record.message, ht]
    exact .write j .trace "evaluate" t
  · exact .skip hwants

theorem State.takes_of_report {s : State} {j j' : Journal} (h : s.report j = .ok j') :
    j.Takes (s.record?.toList.map Record.message) j' := by
  unfold State.report at h
  split at h
  · rename_i hnone
    cases h
    rw [hnone]
    exact .nil j
  · rename_i record hsome
    rw [hsome]
    exact Record.takes_of_report h

theorem takes_reported (fuel : Nat) (s : State) (j : Journal) :
    j.Takes ((reported slots text fuel s j).map Record.message)
      (runTraced slots text fuel s j).2 := by
  induction fuel generalizing s j with
  | zero => exact .nil j
  | succ fuel ih =>
    rw [runTraced, reported]
    cases hreport : s.report j with
    | error f => exact .nil j
    | ok j' =>
      have hfirst := State.takes_of_report hreport
      cases hstep : step slots text s with
      | next s' => simpa using hfirst.append (ih s' j')
      | done r => simpa using hfirst
      | raised f => simpa using hfirst

/-- They are the records on the way to some move, which is the end of the run if that has a
result. -/
theorem exists_reports_reported (fuel : Nat) (s : State) (j : Journal) :
    ∃ m, Reports slots text (.next s) (reported slots text fuel s j) m ∧
      ∀ r, (runTraced slots text fuel s j).1 = .value r → m = .done r := by
  induction fuel generalizing s j with
  | zero =>
    refine ⟨_, .refl, ?_⟩
    rintro r ⟨⟩
  | succ fuel ih =>
    rw [runTraced, reported]
    cases hreport : s.report j with
    | error f =>
      refine ⟨_, .refl, ?_⟩
      rintro r ⟨⟩
    | ok j' =>
      cases hstep : step slots text s with
      | next s' =>
        obtain ⟨m, hreports, hvalue⟩ := ih s' j'
        exact ⟨m, .head (by rwa [hstep]), hvalue⟩
      | done r =>
        refine ⟨.done r, .head (by rw [hstep]; exact .refl), ?_⟩
        rintro _ ⟨⟩
        rfl
      | raised f =>
        refine ⟨.raised f, .head (by rw [hstep]; exact .refl), ?_⟩
        rintro r ⟨⟩

end Machine

/-- **The trace is the derivation.** The journal of a run with a trace takes the records that the run
reports. At any time they begin the listing of the root, with more applications open than over. If
the run ends with a result they are the one listing of the derivation of that result, with one
result fewer than visits: the root has none. However the run ends, if a result can be derived at
all, they are the first part of its listing. -/
theorem trace_lists_derivation (fuel : Nat) (slots : Slots) (text : List Char) (root : Node)
    (pos : Integral) (j : Journal) :
    let tracing : Journal := { j with trace := true }
    let traced := evaluateIn fuel slots text root pos tracing
    let records := reported slots text fuel (.visit root pos []) tracing
    tracing.Takes (records.map Record.message) traced.2 ∧
      (∀ front, front <+: records → front ≠ [] →
        Begins slots text root pos front ∧ resultCount front < visitCount front) ∧
      (∀ r, traced.1 = .value r →
        Derives slots text (.node root pos) (.ok r) ∧
        (∀ listing, IsListing slots text root pos r listing ↔ listing = records) ∧
        visitCount records = resultCount records + 1) ∧
      (∀ r, Derives slots text (.node root pos) (.ok r) →
        ∃ listing, IsListing slots text root pos r listing ∧ records <+: listing) := by
  intro tracing traced records
  obtain ⟨m, hreports, hvalue⟩ : ∃ m, Reports slots text (.next (.visit root pos [])) records m ∧
      ∀ r, (runTraced slots text fuel (.visit root pos []) tracing).1 = .value r → m = .done r :=
    exists_reports_reported fuel _ tracing
  refine ⟨takes_reported fuel _ tracing, ?_, ?_, ?_⟩
  · intro front hfront hne
    obtain ⟨m', hm'⟩ := hreports.exists_of_prefix hfront
    have hbegins := (recorded_of_reports hm').begins hne
    exact ⟨hbegins, hbegins.resultCount_lt⟩
  · intro r hr
    obtain rfl := hvalue r hr
    have hlisting : IsListing slots text root pos r records := recorded_of_reports hreports
    refine ⟨derives_iff_exists_isListing.mpr ⟨records, hlisting⟩, fun listing => ?_,
      hlisting.visitCount_eq⟩
    exact ⟨fun h => h.unique hlisting, fun h => h ▸ hlisting⟩
  · intro r hd
    obtain ⟨listing, hlisting⟩ := derives_iff_exists_isListing.mp hd
    exact ⟨listing, hlisting, hreports.prefix_of_done (reports_of_isListing hlisting)⟩

/-- A letter `a` or `b`, and a `c` behind it. -/
def letterThenC : Node :=
  .seq 4
    (.choice 2 (.leaf 0 (.ofRegex "a" (.one (.ofChar 'a') .exact)))
      (.leaf 1 (.ofRegex "b" (.one (.ofChar 'b') .exact))))
    (.leaf 3 (.ofRegex "c" (.one (.ofChar 'c') .exact)))

/-- On `bc` the first letter fails, and the choice hands on what the second one gives. -/
theorem trace_lists_derivation_letterThenC :
    ∃ listing, IsListing #[] ['b', 'c'] letterThenC (.num 0)
        (.success [.text "b", .text "c"] (.num 2)) listing ∧
      listing.mapM (·.text.toOption) = some ["and @0", "or @0", "/a/ @0",
        "  -> Failure(pos=0, message=None)", "/b/ @0", "  -> Success(tokens=['b'], pos=1)",
        "  -> Success(tokens=['b'], pos=1)", "/c/ @1", "  -> Success(tokens=['c'], pos=2)"] := by
  have hvalue : (evaluateIn 20 #[] ['b', 'c'] letterThenC (.num 0) (Journal.new true "WARNING")).1 =
      .value (.success [.text "b", .text "c"] (.num 2)) := rfl
  have hlisting := (trace_lists_derivation 20 #[] ['b', 'c'] letterThenC (.num 0)
    (Journal.new true "WARNING")).2.2.1 _ hvalue
  exact ⟨_, (hlisting.2.1 _).mpr rfl, by decide +kernel⟩

end LeafGrammar
