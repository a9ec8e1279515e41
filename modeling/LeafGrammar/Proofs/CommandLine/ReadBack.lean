import LeafGrammar.Proofs.CommandLine.Report
import LeafGrammar.Proofs.Session.Spelling
import LeafGrammar.Proofs.Text.Quoted

/-!
# What is printed tells the tokens

Where all tokens of a parse are texts, each is printed on a line of its own, behind its number and
in quotes. No such line is broken by what stands in the token, so the lines can be told apart, and
each token can be read back from its line. `readBack` does so: it gives the tokens for what has
been printed, and so no two lists of texts are printed alike.

The program's matching command runs a leaf, or a repetition of one. The tokens of such a rule spell
the text, so the text can be read back too (`stdout_determines_tokens`).
-/

namespace LeafGrammar

/-! ### Lines -/

/-- The lines of a text, without the line feeds that end them. -/
def linesOf : List Char → List (List Char)
  | [] => []
  | c :: rest =>
    if c = '\n' then [] :: linesOf rest
    else
      match linesOf rest with
      | [] => [[c]]
      | line :: more => (c :: line) :: more

theorem linesOf_append {line : List Char} (h : '\n' ∉ line) (rest : List Char) :
    linesOf (line ++ '\n' :: rest) = line :: linesOf rest := by
  induction line with
  | nil => rfl
  | cons c line ih =>
    rw [List.mem_cons, not_or] at h
    rw [List.cons_append, linesOf, if_neg (Ne.symm h.1), ih h.2]

theorem linesOf_join {rows : List String} (h : ∀ row ∈ rows, '\n' ∉ row.toList) :
    linesOf (String.join (rows.map (· ++ "\n"))).toList = rows.map String.toList := by
  induction rows with
  | nil => rfl
  | cons row rows ih =>
    have hrow := h row List.mem_cons_self
    have hrows := ih fun row' hr => h row' (List.mem_cons_of_mem row hr)
    simp only [List.map_cons, String.join_cons, String.toList_append]
    rw [← hrows, ← linesOf_append hrow]
    simp

/-! ### Rows -/

namespace Report

/-- What is printed for token number `i`, without the line feed behind it. -/
def row (i : Nat) (token : String) : String := index i ++ ": " ++ Text.quoted token

/-- The token that stands in a row. -/
def tokenOf? (row : List Char) : Option String :=
  (Text.unquoted ((row.dropWhile (· != ':')).drop 2)).map String.ofList

/-- The tokens that a text shows, one on each line. -/
def readBack (stdout : String) : List String := (linesOf stdout.toList).filterMap tokenOf?

theorem isDigit_of_mem_index {i : Nat} {c : Char} (h : c ∈ (index i).toList) :
    c.isDigit = true := by
  simp only [index, String.toList_ofList, List.mem_append] at h
  rcases h with h | h
  · rw [(List.mem_replicate.mp h).2]
    rfl
  · exact Nat.isDigit_of_mem_toDigits (by decide) (by decide) h

theorem toList_row (i : Nat) (token : String) :
    (row i token).toList = (index i).toList ++ ':' :: ' ' :: Text.quotedChars token.toList := by
  simp [row, Text.quoted]

/-- What stands in a token does not break its row. -/
theorem newline_not_mem_row (i : Nat) (token : String) : '\n' ∉ (row i token).toList := by
  rw [toList_row, List.mem_append, List.mem_cons, List.mem_cons]
  rintro (h | h | h | h)
  · cases isDigit_of_mem_index h
  · cases h
  · cases h
  · exact Text.newline_not_mem_quotedChars _ h

/-- A token is read back from its row. -/
theorem tokenOf?_row (i : Nat) (token : String) : tokenOf? (row i token).toList = some token := by
  have hindex : ∀ c ∈ (index i).toList, (c != ':') = true := by
    intro c hc
    rw [bne_iff_ne]
    rintro rfl
    cases isDigit_of_mem_index hc
  rw [tokenOf?, toList_row, List.dropWhile_append_of_pos hindex]
  simp [Text.unquoted_quotedChars]

/-- So are all tokens, from whatever number on. -/
theorem filterMap_rows (tokens : List String) (start : Nat) :
    ((tokens.mapIdx fun i => row (start + i)).map String.toList).filterMap tokenOf? = tokens := by
  induction tokens generalizing start with
  | nil => rfl
  | cons token tokens ih =>
    rw [List.mapIdx_cons, List.map_cons, List.filterMap_cons, tokenOf?_row]
    have hrest := ih (start + 1)
    simp only [Nat.add_assoc, Nat.add_comm 1] at hrest
    simp only [hrest]

theorem readBack_rows (tokens : List String) :
    readBack (String.join ((tokens.mapIdx row).map (· ++ "\n"))) = tokens := by
  have hrows : ∀ r ∈ tokens.mapIdx row, '\n' ∉ r.toList := by
    intro r hr
    obtain ⟨i, hi, rfl⟩ := List.mem_mapIdx.mp hr
    exact newline_not_mem_row i _
  have hall := filterMap_rows tokens 0
  simp only [Nat.zero_add] at hall
  rw [readBack, linesOf_join hrows]
  exact hall

end Report

/-! ### The rule of a task -/

namespace Build

instance : IsPreorder Session Session.Grown where
  refl := .refl
  trans _ _ _ := .trans

variable {s : Session} {text : List Char}

/-- A leaf for what has been read, if a pattern has been. -/
theorem leafRead_leads (source : String) {reading : Except PatternFault Pattern}
    (h : ∀ p, reading = .ok p → p.FindsInPlace text) :
    Leads Session.Grown (leafRead source reading) s
      fun r _ => ∀ x ∈ r.node.pieces, x.IsReader text := by
  unfold leafRead
  split
  · rename_i p
    obtain ⟨r, s', hrun, hgrown, ⟨id, hnode⟩, -⟩ := issueFresh_makes (s := s) (.leaf · p)
    rw [leafFor, Leads, hrun]
    refine ⟨hgrown, ?_⟩
    rintro _ ⟨⟩
    rw [hnode, Node.pieces]
    exact List.forall_mem_singleton.mpr (h p rfl)
  · exact .fault _
  · exact .fault _

theorem rep_leads (r : Rule) (least most : Value) (hr : ∀ x ∈ r.node.pieces, x.IsReader text) :
    Leads Session.Grown (rep r least most) s
      fun r' _ => ∀ x ∈ r'.node.pieces, x.IsReader text := by
  refine (leastOf_leads least).bind fun low _ _ _ => ?_
  refine (mostOf_leads low most).bind fun high s' _ _ => ?_
  obtain ⟨r', s'', hrun, hgrown, ⟨id, hnode⟩, -⟩ :=
    derive_makes (s := s') r (.rep · r.node low high)
  rw [Leads, hrun]
  refine ⟨hgrown, ?_⟩
  rintro _ ⟨⟩
  rw [hnode, Node.pieces]
  exact List.forall_mem_cons.mpr ⟨trivial, hr⟩

end Build

namespace CommandLine

variable {read : PatternReader} {settings : Settings} {args : List String} {request : Request}
  {text : List Char}

/-- A matching task makes a rule that only takes the text to pieces, if its pattern finds what it
finds in place, and fills no slot. -/
theorem Task.matching_leads (pattern : String) (min max : Option Int) (s : Session)
    (h : ∀ p, read pattern .none = .ok p → p.FindsInPlace text) :
    Build.Leads Session.Grown ((Task.matching pattern min max).build read) s
      fun r _ => ∀ x ∈ r.node.pieces, x.IsReader text := by
  refine (Build.leafRead_leads pattern h).bind fun r s' _ hr => ?_
  split
  · exact Build.rep_leads r _ _ hr
  · exact .pure hr

/-- So does the rule of such a task's job. -/
theorem onlyReads_of_start {pattern : String} {min max : Option Int} {job : Job}
    (hrequest : readRequest args = .ok request) (htask : request.task = .matching pattern min max)
    (hstart : start read settings args = .job job)
    (h : ∀ p, read pattern .none = .ok p → p.FindsInPlace text) :
    job.rule.node.OnlyReads job.session.slots text := by
  have hleads := Task.matching_leads pattern min max (sessionFor settings request.debug) h
  unfold start at hstart
  rw [hrequest] at hstart
  simp only [htask] at hstart
  split at hstart
  · rename_i rule session hbuild
    cases hstart
    rw [Build.Leads, hbuild] at hleads
    refine Node.onlyReads_of_pieces (hleads.2 rule rfl) fun slot target htarget => ?_
    rw [hleads.1.target?_eq] at htarget
    cases htarget
  · cases hstart
  · cases hstart

/-- A task that cannot be built does not end the program with success. -/
theorem ending_ne_of_start {report : Report} (hrequest : readRequest args = .ok request)
    (hstart : start read settings args = .finished report) : report.ending ≠ .exit 0 := by
  unfold start at hstart
  rw [hrequest] at hstart
  simp only at hstart
  split at hstart
  · cases hstart
  · cases hstart
    simp [Report.ofGrammarFault, Report.failed]
  · cases hstart
    simp [Report.escape]

end CommandLine

/-! ### Reports on texts -/

namespace Value

theorem shownAll_texts (tokens : List String) :
    shownAll (tokens.map .text) = .ok (tokens.map Text.quoted) := by
  induction tokens with
  | nil => rw [List.map_nil, shownAll, List.map_nil]
  | cons token tokens ih =>
    rw [List.map_cons, shownAll, shown, ih]
    rfl

end Value

namespace Report

theorem lines_quoted (tokens : List String) :
    lines (tokens.map Text.quoted) = String.join ((tokens.mapIdx row).map (· ++ "\n")) := by
  refine congrArg String.join (List.mapIdx_eq_iff.mpr fun i => ?_)
  simp only [List.getElem?_map, List.getElem?_mapIdx, Option.map_map]
  rfl

/-- Tokens that are texts are printed row by row. -/
theorem ofTokens_texts (tokens : List String) :
    ofTokens (tokens.map .text) =
      ⟨.exit 0, String.join ((tokens.mapIdx row).map (· ++ "\n")), ""⟩ := by
  rw [ofTokens_of_shownAll (Value.shownAll_texts tokens), lines_quoted]

/-- A success is told of tokens only. -/
theorem exists_value_of_exit_zero {outcome : Outcome (List Value)}
    (h : (ofOutcome outcome).ending = .exit 0) : ∃ tokens, outcome = .value tokens := by
  cases outcome with
  | value tokens => exact ⟨tokens, rfl⟩
  | outOfFuel => cases h
  | raised f =>
    rw [ofOutcome] at h
    rcases ofFault_cases f with ⟨stderr, hfailed, -⟩ | ⟨g, hescaped, -⟩
    · rw [hfailed] at h
      cases f <;> cases h
    · rw [hescaped] at h
      cases h

end Report

/-- A job that ends with success has parsed its text, and prints the tokens. -/
theorem CommandLine.Job.exists_of_exit_zero {job : Job} {fuel : Nat}
    {input : Except Fault (List Char)} (h : (job.finish fuel input).ending = .exit 0) :
    ∃ text tokens, input = .ok text ∧ (job.session.parse fuel job.rule text).1 = .value tokens ∧
      (job.finish fuel input).stdout = (Report.ofTokens tokens).stdout := by
  cases input with
  | error f => cases h
  | ok text =>
    have hending : (Report.ofOutcome (job.session.parse fuel job.rule text).1).ending = .exit 0 := h
    obtain ⟨tokens, htokens⟩ := Report.exists_value_of_exit_zero hending
    refine ⟨text, tokens, rfl, htokens, ?_⟩
    show (Report.ofOutcome (job.session.parse fuel job.rule text).1).stdout = _
    rw [htokens]
    rfl

open CommandLine in
/-- **What is printed determines the tokens.** A parse whose tokens are texts ends with success. It
prints a row for each token, in order, each with a line feed behind it and none in it, and the
tokens can be read back from that. So two parses that print the same have the same tokens. And when
a matching command ends with success, however patterns are read, and its pattern finds what it finds
in the text in place, then the tokens that are read back from what it has printed are, put together,
the text that it was given. -/
theorem stdout_determines_tokens :
    (∀ (s : Session) (fuel : Nat) (r : Rule) (text : List Char) (tokens : List String),
      (s.parse fuel r text).1 = .value (tokens.map .text) →
        let report := (s.report fuel r text).1
        let rows := tokens.mapIdx Report.row
        report.ending = .exit 0 ∧ report.stdout = String.join (rows.map (· ++ "\n")) ∧
          (∀ row ∈ rows, '\n' ∉ row.toList) ∧ Report.readBack report.stdout = tokens) ∧
    (∀ (s s' : Session) (fuel fuel' : Nat) (r r' : Rule) (text text' : List Char)
      (tokens tokens' : List String),
      (s.parse fuel r text).1 = .value (tokens.map .text) →
        (s'.parse fuel' r' text').1 = .value (tokens'.map .text) →
          (s.report fuel r text).1.stdout = (s'.report fuel' r' text').1.stdout →
            tokens = tokens') ∧
    (∀ (read : PatternReader) (settings : Settings) (args : List String) (request : Request)
      (pattern : String) (min max : Option Int) (fuel : Nat) (input : Except Fault (List Char)),
      readRequest args = .ok request → request.task = .matching pattern min max →
        match start read settings args with
        | .finished report => report.ending ≠ .exit 0
        | .job job =>
          let report := job.finish fuel input
          report.ending = .exit 0 →
            ∃ text, input = .ok text ∧
              ((∀ p, read pattern .none = .ok p → p.FindsInPlace text) →
                String.join (Report.readBack report.stdout) = String.ofList text)) := by
  have hprinted (s : Session) (fuel : Nat) (r : Rule) (text : List Char) (tokens : List String)
      (h : (s.parse fuel r text).1 = .value (tokens.map .text)) :
      (s.report fuel r text).1 =
        ⟨.exit 0, String.join ((tokens.mapIdx Report.row).map (· ++ "\n")), ""⟩ := by
    rw [← Report.ofTokens_texts]
    show Report.ofOutcome (s.parse fuel r text).1 = _
    rw [h]
    rfl
  refine ⟨?_, ?_, ?_⟩
  · intro s fuel r text tokens h
    rw [hprinted s fuel r text tokens h]
    refine ⟨rfl, rfl, fun row hrow => ?_, Report.readBack_rows tokens⟩
    obtain ⟨i, hi, rfl⟩ := List.mem_mapIdx.mp hrow
    exact Report.newline_not_mem_row i _
  · intro s s' fuel fuel' r r' text text' tokens tokens' h h' hstdout
    rw [hprinted s fuel r text tokens h, hprinted s' fuel' r' text' tokens' h'] at hstdout
    rw [← Report.readBack_rows tokens, ← Report.readBack_rows tokens']
    exact congrArg Report.readBack hstdout
  · intro read settings args request pattern min max fuel input hrequest htask
    split
    · rename_i report hstart
      exact ending_ne_of_start hrequest hstart
    · rename_i job hstart
      intro report hending
      obtain ⟨text, values, hinput, hparse, hstdout⟩ := job.exists_of_exit_zero hending
      refine ⟨text, hinput, fun hpattern => ?_⟩
      have hreads := onlyReads_of_start hrequest htask hstart hpattern
      obtain ⟨tokens, rfl, hjoin⟩ := Session.exists_pieces_of_parse hreads hparse
      rw [hstdout, Report.ofTokens_texts, Report.readBack_rows, hjoin]

open CommandLine in
/-- A letter and a quote, each on its row. -/
theorem stdout_determines_tokens_letterQuote :
    ∃ request job, readRequest ["match", "a|'", "--min", "1", "--text", "a'"] = .ok request ∧
      request.task = .matching "a|'" (some 1) none ∧
      start Pattern.read Settings.default ["match", "a|'", "--min", "1", "--text", "a'"] =
        .job job ∧
      (job.finish 20 (.ok ['a', '\''])).stdout = "000: 'a'\n001: \"'\"\n" ∧
      String.join (Report.readBack (job.finish 20 (.ok ['a', '\''])).stdout) = "a'" := by
  obtain ⟨request, hrequest, htask⟩ : ∃ request,
      readRequest ["match", "a|'", "--min", "1", "--text", "a'"] = .ok request ∧
        request.task = .matching "a|'" (some 1) none := ⟨_, rfl, rfl⟩
  obtain ⟨job, hjob, hending, hstdout⟩ : ∃ job,
      start Pattern.read Settings.default ["match", "a|'", "--min", "1", "--text", "a'"] =
          .job job ∧
        (job.finish 20 (.ok ['a', '\''])).ending = .exit 0 ∧
        (job.finish 20 (.ok ['a', '\''])).stdout = "000: 'a'\n001: \"'\"\n" := ⟨_, rfl, rfl, rfl⟩
  have hplace (p : Pattern) (h : Pattern.read "a|'" .none = .ok p) :
      p.FindsInPlace ['a', '\''] := by
    cases h
    exact Pattern.findsInPlace_of_isKeepless _ rfl _
  have hread := stdout_determines_tokens.2.2 Pattern.read Settings.default _ request "a|'" (some 1)
    none 20 (.ok ['a', '\'']) hrequest htask
  rw [hjob] at hread
  obtain ⟨_, ⟨⟩, hjoin⟩ := hread hending
  exact ⟨request, job, hrequest, htask, hjob, hstdout, hjoin hplace⟩

open CommandLine in
/-- A pattern that finds a letter behind any other prints the same for the texts `ab` and `bb`. -/
theorem stdout_alike_behindAny :
    ∃ job job',
      start Pattern.read Settings.default ["match", ".\\K.|.", "--min", "0", "--text", "ab"] =
        .job job ∧
      start Pattern.read Settings.default ["match", ".\\K.|.", "--min", "0", "--text", "bb"] =
        .job job' ∧
      (job.finish 20 (.ok ['a', 'b'])).ending = .exit 0 ∧
      (job'.finish 20 (.ok ['b', 'b'])).ending = .exit 0 ∧
      (job.finish 20 (.ok ['a', 'b'])).stdout = "000: 'b'\n001: 'b'\n" ∧
      (job'.finish 20 (.ok ['b', 'b'])).stdout = (job.finish 20 (.ok ['a', 'b'])).stdout :=
  ⟨_, _, rfl, rfl, rfl, rfl, rfl, rfl⟩

end LeafGrammar
