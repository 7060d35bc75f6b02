import ShellTutor.Command.Line
import ShellTutor.Proofs.Outcome
import ShellTutor.Proofs.Text.Split

/-!
# Reading back what a line is written as

Reading a line and writing it are inverse on the lines that can be read at all. The scan for the
redirect runs over the whole line before it is cut into stages and words, so what it skips has to be
known for each piece by itself: a bar or a blank is never a backslash, and a piece that starts
behind one is scanned as if the line began there.
-/

namespace ShellTutor.ParsedLine

/-- Whether a backslash is left at the end of the text that takes the character after it. -/
def pendingAfter (pending : Bool) (cs : List Char) : Bool :=
  cs.foldl (fun pending c => !pending && c == '\\') pending

/-- Every `>` of the text is taken by a backslash that is not taken itself. A scan of the whole text
starts with no backslash pending. -/
def EscapesFrom (pending : Bool) (cs : List Char) : Prop :=
  ∀ before after, cs = before ++ '>' :: after → pendingAfter pending before = true

structure IsToken (token : String) : Prop where
  ne_empty : token ≠ ""
  not_blank : ∀ c ∈ token.toList, Text.isBlank c = false
  not_bar : '|' ∉ token.toList
  escapes : EscapesFrom false token.toList

/-- A word that may stand behind the redirect. -/
structure IsTarget (target : String) : Prop where
  ne_empty : target ≠ ""
  not_blank : ∀ c ∈ target.toList, Text.isBlank c = false
  not_bar : '|' ∉ target.toList
  not_redirect : '>' ∉ target.toList

def IsStage (stage : List String) : Prop :=
  stage ≠ [] ∧ ∀ token ∈ stage, IsToken token

/-- The lines that can be written. -/
structure WellFormed (p : ParsedLine) : Prop where
  stages_ne_nil : p.stages ≠ []
  stages : ∀ stage ∈ p.stages, IsStage stage
  target : ∀ r ∈ p.redirect, IsTarget r.target

/-! ## The scan for the redirect -/

section Scan

variable {pending : Bool} {cs before after xs ys : List Char} {c : Char}

theorem pendingAfter_append :
    pendingAfter pending (xs ++ ys) = pendingAfter (pendingAfter pending xs) ys :=
  List.foldl_append

theorem pendingAfter_of_getLast? (h : ∀ c ∈ cs.getLast?, c ≠ '\\') :
    pendingAfter false cs = false := by
  rcases List.eq_nil_or_concat cs with rfl | ⟨init, c, rfl⟩
  · rfl
  · have hc : c ≠ '\\' := h c (by simp)
    rw [List.concat_eq_append, pendingAfter_append]
    simp [pendingAfter, hc]

theorem escapesFrom_append :
    EscapesFrom pending (xs ++ ys) ↔
      EscapesFrom pending xs ∧ EscapesFrom (pendingAfter pending xs) ys := by
  constructor
  · intro h
    refine ⟨?_, ?_⟩
    · intro before after heq
      exact h before (after ++ ys) (by simp [heq])
    · intro before after heq
      rw [← pendingAfter_append]
      exact h (xs ++ before) after (by simp [heq])
  · rintro ⟨hxs, hys⟩ before after heq
    rcases List.append_eq_append_iff.mp heq with ⟨mid, hbefore, hmid⟩ | ⟨mid, hxs', hmid⟩
    · rw [hbefore, pendingAfter_append]
      exact hys mid after hmid
    · cases mid with
      | nil =>
        rw [List.append_nil] at hxs'
        rw [← hxs']
        exact hys [] after hmid.symm
      | cons c mid =>
        obtain ⟨rfl, -⟩ := List.cons.inj hmid
        exact hxs before mid hxs'

theorem escapesFrom_of_not_mem (h : '>' ∉ cs) : EscapesFrom pending cs := by
  intro before after heq
  exact absurd (by simp [heq]) h

/-- A backslash takes whatever character is behind it. -/
theorem escapesFrom_pair (c : Char) : EscapesFrom false ['\\', c] := by
  rintro (_ | ⟨x, _ | ⟨y, rest⟩⟩) after heq
  · simp at heq
  · obtain ⟨rfl, -⟩ := List.cons.inj heq
    rfl
  · simp at heq

theorem not_escapesFrom (h : pendingAfter pending before = false) :
    ¬ EscapesFrom pending (before ++ '>' :: after) := by
  intro hescapes
  have htaken := hescapes before after rfl
  simp [h] at htaken

/-- What a scan can find: that every `>` is taken, or the texts around the first that is not. -/
def ScanFinds (cs : List Char) : Option (List Char × List Char) → Prop
  | none => EscapesFrom false cs
  | some (before, after) =>
    cs = before ++ '>' :: after ∧ EscapesFrom false before ∧ pendingAfter false before = false

variable {found found' : Option (List Char × List Char)}

theorem ScanFinds.append (hxs : EscapesFrom false xs) (hpending : pendingAfter false xs = false)
    (h : ScanFinds cs found) :
    ScanFinds (xs ++ cs) (found.map fun (before, after) => (xs ++ before, after)) := by
  cases found with
  | none =>
    rw [Option.map_none, ScanFinds, escapesFrom_append, hpending]
    exact ⟨hxs, h⟩
  | some parts =>
    obtain ⟨rfl, hbefore, hfree⟩ := h
    rw [Option.map_some, ScanFinds, escapesFrom_append, pendingAfter_append, hpending]
    exact ⟨by rw [List.append_assoc], ⟨hxs, hbefore⟩, hfree⟩

theorem scanFinds_splitRedirect (cs : List Char) : ScanFinds cs (splitRedirect cs) := by
  fun_induction splitRedirect cs with
  | case1 => exact escapesFrom_of_not_mem (by simp)
  | case2 => exact escapesFrom_of_not_mem (by simp)
  | case3 c cs ih => exact ih.append (escapesFrom_pair c) rfl
  | case4 cs _ _ => exact ⟨rfl, escapesFrom_of_not_mem (by simp), rfl⟩
  | case5 c cs hend hpair hc ih =>
    have hslash : c ≠ '\\' := by
      rintro rfl
      cases cs with
      | nil => exact hend rfl rfl
      | cons d cs => exact hpair d cs rfl rfl
    have hplain : EscapesFrom false [c] :=
      escapesFrom_of_not_mem fun h => hc (List.mem_singleton.mp h).symm
    exact ih.append hplain (pendingAfter_of_getLast? (by simpa using hslash))

private theorem exists_of_length_lt {before' after' : List Char}
    (h : before ++ '>' :: after = before' ++ '>' :: after')
    (hlt : before.length < before'.length) : ∃ mid, before' = before ++ '>' :: mid := by
  have hlong : before ++ ['>'] <+: before' ++ '>' :: after' := ⟨after, by simp [← h]⟩
  have hlength : (before ++ ['>']).length ≤ before'.length := by
    rw [List.length_append]
    exact hlt
  obtain ⟨mid, hmid⟩ :=
    List.prefix_of_prefix_length_le hlong (List.prefix_append before' _) hlength
  exact ⟨mid, by simp [← hmid]⟩

/-- Nothing else can be found: of two free `>` the later one has the earlier one before it. -/
theorem ScanFinds.unique (h : ScanFinds cs found) (h' : ScanFinds cs found') : found = found' := by
  rcases found with _ | ⟨before, after⟩ <;> rcases found' with _ | ⟨before', after'⟩
  · rfl
  · obtain ⟨rfl, -, hfree'⟩ := h'
    exact absurd h (not_escapesFrom hfree')
  · obtain ⟨rfl, -, hfree⟩ := h
    exact absurd h' (not_escapesFrom hfree)
  · obtain ⟨hcs, hbefore, hfree⟩ := h
    obtain ⟨hcs', hbefore', hfree'⟩ := h'
    have hle : ¬ before.length < before'.length := by
      intro hlt
      obtain ⟨mid, rfl⟩ := exists_of_length_lt (hcs.symm.trans hcs') hlt
      exact not_escapesFrom hfree hbefore'
    have hge : ¬ before'.length < before.length := by
      intro hlt
      obtain ⟨mid, rfl⟩ := exists_of_length_lt (hcs'.symm.trans hcs) hlt
      exact not_escapesFrom hfree' hbefore
    obtain ⟨rfl, htail⟩ := List.append_inj (hcs'.symm.trans hcs) (by omega)
    rw [(List.cons.inj htail).2]

theorem splitRedirect_eq_iff : splitRedirect cs = found ↔ ScanFinds cs found := by
  constructor
  · rintro rfl
    exact scanFinds_splitRedirect cs
  · exact (scanFinds_splitRedirect cs).unique

/-- A piece that does not start behind a backslash is scanned by itself. -/
theorem escapesFrom_of_mem_splitOnP {sep : Char → Bool} (hsep : sep '\\' = false)
    {piece : List Char} (hcs : EscapesFrom false cs) (h : piece ∈ cs.splitOnP sep) :
    EscapesFrom false piece := by
  obtain ⟨before, after, rfl, hbefore⟩ := Text.mem_splitOnP_place h
  have hpending : pendingAfter false before = false := by
    apply pendingAfter_of_getLast?
    rintro c hc rfl
    simpa [hsep] using hbefore _ hc
  rw [escapesFrom_append, escapesFrom_append, hpending] at hcs
  exact hcs.1.2

end Scan

/-! ## What is read is well formed -/

section Reading

variable {cs segment : List Char} {stages : List (List String)} {stage trailing : List String}
  {r : Redirect}

theorem IsTarget.isToken {word : String} (h : IsTarget word) : IsToken word where
  ne_empty := h.ne_empty
  not_blank := h.not_blank
  not_bar := h.not_bar
  escapes := escapesFrom_of_not_mem h.not_redirect

theorem mem_words {s word : String} (h : word ∈ Text.words s) :
    word.toList ∈ s.toList.splitOnP Text.isBlank ∧ word ≠ "" ∧
      ∀ c ∈ word.toList, Text.isBlank c = false := by
  obtain ⟨run, hrun, rfl⟩ := List.mem_map.mp h
  obtain ⟨hmem, hne, hplain⟩ := Text.mem_runs hrun
  simpa using ⟨hmem, hne, hplain⟩

/-- The words of a segment are tokens: the scan that skipped their `>` skips it in each word. -/
theorem isToken_of_mem_words {word : String} (hcs : EscapesFrom false cs)
    (hsegment : segment ∈ cs.splitOn '|') (h : word ∈ Text.words (String.ofList segment)) :
    IsToken word := by
  obtain ⟨hmem, hne, hplain⟩ := mem_words h
  rw [String.toList_ofList] at hmem
  obtain ⟨before, after, hplace, -⟩ := Text.mem_splitOnP_place hmem
  have hbar : '|' ∉ segment := Text.not_mem_of_mem_splitOn hsegment
  have hescapes : EscapesFrom false segment := escapesFrom_of_mem_splitOnP (by decide) hcs hsegment
  exact {
    ne_empty := hne
    not_blank := hplain
    not_bar := fun hc => hbar (by simp [hplace, hc])
    escapes := escapesFrom_of_mem_splitOnP (by decide) hescapes hmem }

def readStage (segment : List Char) : Except ShellError (List String) :=
  match Text.words (String.ofList segment) with
  | [] => .error (.unexpectedToken "|")
  | words => .ok words

theorem readStage_eq_ok :
    readStage segment = .ok stage ↔ Text.words (String.ofList segment) = stage ∧ stage ≠ [] := by
  rw [readStage]
  cases Text.words (String.ofList segment) with
  | nil => simp [eq_comm]
  | cons word words =>
    constructor
    · rintro ⟨⟩
      simp
    · rintro ⟨rfl, -⟩
      rfl

theorem readStages_eq :
    readStages cs =
      if cs.all Text.isBlank then .error (.invalidArgument "syntax error: missing command")
      else (cs.splitOn '|').mapM readStage :=
  rfl

theorem readStages_sound (hcs : EscapesFrom false cs) (h : readStages cs = .ok stages) :
    stages ≠ [] ∧ ∀ stage ∈ stages, IsStage stage := by
  rw [readStages_eq] at h
  split at h
  · cases h
  · obtain ⟨hlength, hmem⟩ := Outcome.mapM_eq_ok h
    refine ⟨?_, ?_⟩
    · rintro rfl
      exact List.splitOnP_ne_nil _ cs (List.length_eq_zero_iff.mp hlength.symm)
    · intro stage hstage
      obtain ⟨segment, hsegment, hread⟩ := hmem stage hstage
      obtain ⟨rfl, hne⟩ := readStage_eq_ok.mp hread
      exact ⟨hne, fun word hword => isToken_of_mem_words hcs hsegment hword⟩

theorem offendingToken?_eq_none {word : String} :
    offendingToken? word = none ↔ '|' ∉ word.toList ∧ '>' ∉ word.toList := by
  simp only [offendingToken?, List.contains_eq_mem, decide_eq_true_eq]
  split
  · simp_all
  · split <;> simp_all

theorem readRedirect_sound (h : readRedirect cs = .ok (r, trailing)) :
    ∀ word ∈ r.target :: trailing, IsTarget word := by
  unfold readRedirect at h
  dsimp only at h
  split at h
  · cases h
  · next target words hwords =>
    split at h
    · cases h
    · next hoffending =>
      cases h
      intro word hword
      obtain ⟨-, hne, hplain⟩ := mem_words (hwords ▸ hword)
      obtain ⟨hbar, hredirect⟩ :=
        offendingToken?_eq_none.mp (List.findSome?_eq_none_iff.mp hoffending word hword)
      exact ⟨hne, hplain, hbar, hredirect⟩

theorem extendLast_eq_nil : extendLast trailing stages = [] ↔ stages = [] := by
  cases stages using extendLast.induct <;> simp [extendLast]

theorem extendLast_nil : extendLast [] stages = stages := by
  induction stages using extendLast.induct with
  | case1 => rfl
  | case2 last => simp [extendLast]
  | case3 stage next rest ih => rw [extendLast, ih]

/-- The words behind a redirect's target leave every stage a stage. -/
theorem isStage_of_mem_extendLast (hstages : ∀ stage ∈ stages, IsStage stage)
    (htrailing : ∀ word ∈ trailing, IsToken word) :
    ∀ stage ∈ extendLast trailing stages, IsStage stage := by
  induction stages using extendLast.induct with
  | case1 => simp [extendLast]
  | case2 last =>
    intro stage hstage
    rw [extendLast, List.mem_singleton] at hstage
    subst hstage
    obtain ⟨hne, htokens⟩ := hstages last (List.mem_singleton_self _)
    refine ⟨by simp [hne], ?_⟩
    intro word hword
    rcases List.mem_append.mp hword with hword | hword
    · exact htokens word hword
    · exact htrailing word hword
  | case3 first next rest ih =>
    intro stage hstage
    rw [extendLast, List.mem_cons] at hstage
    rcases hstage with rfl | hstage
    · exact hstages _ (List.mem_cons_self ..)
    · exact ih (fun old hold => hstages old (List.mem_cons_of_mem _ hold)) stage hstage

/-- What is read of a line is well formed, unless nothing is to be run. -/
theorem parse_sound {line : String} {p : ParsedLine} (h : parse line = .ok p) :
    p = {} ∨ p.WellFormed := by
  rw [parse] at h
  dsimp only at h
  split at h
  · cases h
    exact .inl rfl
  · right
    split at h
    · next hsplit =>
      obtain ⟨stages, hread, h⟩ := Outcome.bind_eq_ok.mp h
      cases h
      obtain ⟨hne, hstages⟩ := readStages_sound (splitRedirect_eq_iff.mp hsplit) hread
      exact ⟨hne, hstages, by simp⟩
    · next before after hsplit =>
      obtain ⟨⟨r, trailing⟩, hredirect, h⟩ := Outcome.bind_eq_ok.mp h
      obtain ⟨stages, hread, h⟩ := Outcome.bind_eq_ok.mp h
      cases h
      obtain ⟨-, hescapes, -⟩ := splitRedirect_eq_iff.mp hsplit
      obtain ⟨hne, hstages⟩ := readStages_sound hescapes hread
      have hwords := readRedirect_sound hredirect
      refine ⟨(not_congr extendLast_eq_nil).mpr hne, ?_, ?_⟩
      · exact isStage_of_mem_extendLast hstages fun word hword =>
          (hwords word (List.mem_cons_of_mem _ hword)).isToken
      · rintro _ ⟨⟩
        exact hwords _ (List.mem_cons_self ..)

end Reading

/-! ## What is written reads back -/

section Writing

variable {stages : List (List String)} {stage : List String}

def stageText (stage : List String) : List Char :=
  [' '].intercalate (stage.map String.toList)

def stagesText (stages : List (List String)) : List Char :=
  [' ', '|', ' '].intercalate (stages.map stageText)

/-- The characters of a redirect as it is written, behind its first `>`. -/
def redirectText (r : Redirect) : List Char :=
  (if r.append then ['>', ' '] else [' ']) ++ r.target.toList

theorem toList_render (p : ParsedLine) :
    p.render.toList =
      stagesText p.stages ++ p.redirect.elim [] fun r => [' '] ++ '>' :: redirectText r := by
  have hstage : String.toList ∘ (" ".intercalate ·) = stageText := by
    funext stage
    simp [stageText]
  have hstages : (" | ".intercalate (p.stages.map (" ".intercalate ·))).toList =
      stagesText p.stages := by
    simp [stagesText, hstage]
  rw [render]
  cases p.redirect with
  | none => simpa using hstages
  | some r => cases r with
    | mk target append => cases append <;> simp [hstages, redirectText]

theorem stageText_induction {P : List Char → Prop}
    (hjoin : ∀ xs ys, P xs → P ys → P (xs ++ [' '] ++ ys)) (hstage : IsStage stage)
    (htoken : ∀ token, IsToken token → P token.toList) : P (stageText stage) := by
  apply Text.intercalate_induction hjoin
  · simpa using hstage.1
  · intro cs hcs
    obtain ⟨token, hmem, rfl⟩ := List.mem_map.mp hcs
    exact htoken token (hstage.2 token hmem)

/-- What holds of stages and goes through bars with blanks around them holds of a pipeline. -/
theorem stagesText_induction {P : List Char → Prop}
    (hjoin : ∀ xs ys, P xs → P ys → P (xs ++ [' ', '|', ' '] ++ ys)) (hne : stages ≠ [])
    (hstage : ∀ stage ∈ stages, P (stageText stage)) : P (stagesText stages) := by
  apply Text.intercalate_induction hjoin
  · simpa using hne
  · intro cs hcs
    obtain ⟨stage, hmem, rfl⟩ := List.mem_map.mp hcs
    exact hstage stage hmem

theorem IsToken.trimmed {token : String} (h : IsToken token) : Text.Trimmed token.toList :=
  Text.trimmed_of_plain (by simpa using h.ne_empty) h.not_blank

theorem IsStage.trimmed (h : IsStage stage) : Text.Trimmed (stageText stage) :=
  stageText_induction (fun _ _ hxs hys => hxs.append _ hys) h fun _ htoken => htoken.trimmed

theorem IsStage.not_bar (h : IsStage stage) : '|' ∉ stageText stage := by
  apply stageText_induction (P := ('|' ∉ ·)) _ h
  · exact fun _ htoken => htoken.not_bar
  · intro xs ys hxs hys
    simp [hxs, hys]

theorem trimmed_stagesText (hne : stages ≠ []) (hstages : ∀ stage ∈ stages, IsStage stage) :
    Text.Trimmed (stagesText stages) :=
  stagesText_induction (fun _ _ hxs hys => hxs.append _ hys) hne
    fun stage hmem => (hstages stage hmem).trimmed

theorem escapesFrom_join {xs mid ys : List Char} (hmid : '>' ∉ mid)
    (hpending : ∀ pending, pendingAfter pending mid = false) (hxs : EscapesFrom false xs)
    (hys : EscapesFrom false ys) : EscapesFrom false (xs ++ mid ++ ys) := by
  rw [escapesFrom_append, escapesFrom_append, pendingAfter_append, hpending]
  exact ⟨⟨hxs, escapesFrom_of_not_mem hmid⟩, hys⟩

theorem escapesFrom_stagesText (hne : stages ≠ []) (hstages : ∀ stage ∈ stages, IsStage stage) :
    EscapesFrom false (stagesText stages) := by
  apply stagesText_induction _ hne
  · intro stage hmem
    apply stageText_induction _ (hstages stage hmem)
    · exact fun _ htoken => htoken.escapes
    · exact fun _ _ => escapesFrom_join (by decide) (by decide)
  · exact fun _ _ => escapesFrom_join (by decide) (by decide)

theorem mapM_readStage_stageText (left right : List Char) (hleft : ∀ c ∈ left, c = ' ')
    (hright : ∀ c ∈ right, c = ' ') (h : IsStage stage) :
    ((left ++ stageText stage ++ right).splitOn '|').mapM readStage = .ok [stage] := by
  have hbar : '|' ∉ left ++ stageText stage ++ right := by
    simp only [List.mem_append, not_or]
    exact ⟨⟨fun hc => by simpa using hleft _ hc, h.not_bar⟩, fun hc => by simpa using hright _ hc⟩
  have htokens : ∀ cs ∈ stage.map String.toList, cs ≠ [] ∧ ∀ c ∈ cs, Text.isBlank c = false := by
    intro cs hcs
    obtain ⟨token, hmem, rfl⟩ := List.mem_map.mp hcs
    exact ⟨(h.2 token hmem).trimmed.ne_nil, (h.2 token hmem).not_blank⟩
  have hwords : Text.words (String.ofList (left ++ stageText stage ++ right)) = stage := by
    rw [Text.words, String.toList_ofList,
      Text.runs_append_right fun c hc => hright c hc ▸ by decide,
      Text.runs_append_left fun c hc => hleft c hc ▸ by decide,
      stageText, Text.runs_intercalate (by decide) htokens]
    simp [Function.comp_def]
  rw [List.splitOn_eq_singleton hbar, List.mapM_cons, readStage_eq_ok.mpr ⟨hwords, h.1⟩]
  rfl

theorem mapM_readStage_stagesText (left right : List Char) (hleft : ∀ c ∈ left, c = ' ')
    (hright : ∀ c ∈ right, c = ' ') (hne : stages ≠ [])
    (hstages : ∀ stage ∈ stages, IsStage stage) :
    ((left ++ stagesText stages ++ right).splitOn '|').mapM readStage = .ok stages := by
  induction stages generalizing left with
  | nil => exact absurd rfl hne
  | cons stage rest ih =>
    have hstage := hstages stage (List.mem_cons_self ..)
    cases rest with
    | nil => simpa [stagesText] using mapM_readStage_stageText left right hleft hright hstage
    | cons next rest =>
      have hfirst := mapM_readStage_stageText left [' '] hleft (by simp) hstage
      have hrest := ih [' '] (by simp) (by simp) fun old hold =>
        hstages old (List.mem_cons_of_mem _ hold)
      have hcut : left ++ stagesText (stage :: next :: rest) ++ right =
          (left ++ stageText stage ++ [' ']) ++ '|' ::
            ([' '] ++ stagesText (next :: rest) ++ right) := by
        simp [stagesText]
      rw [hcut, List.splitOn_append_cons_self, List.mapM_append, hfirst, hrest]
      rfl

theorem readStages_stagesText (pad : List Char) (hpad : ∀ c ∈ pad, c = ' ') (hne : stages ≠ [])
    (hstages : ∀ stage ∈ stages, IsStage stage) :
    readStages (stagesText stages ++ pad) = .ok stages := by
  have hblank := (trimmed_stagesText hne hstages).not_all_isBlank
  rw [readStages_eq, List.all_append, hblank, Bool.false_and, if_neg Bool.false_ne_true]
  exact mapM_readStage_stagesText [] pad (by simp) hpad hne hstages

theorem readRedirect_redirectText {r : Redirect} (h : IsTarget r.target) :
    readRedirect (redirectText r) = .ok (r, []) := by
  obtain ⟨target, append⟩ := r
  have hwords : Text.words (" " ++ target) = [target] := by
    rw [Text.words, String.toList_append, Text.runs_append_left (by simp [Text.isBlank]),
      Text.runs_eq_singleton h.isToken.trimmed.ne_nil h.not_blank]
    simp
  have hplain := offendingToken?_eq_none.mpr ⟨h.not_bar, h.not_redirect⟩
  cases append <;> simp [readRedirect, redirectText, hwords, hplain]

theorem WellFormed.trimmed {p : ParsedLine} (h : p.WellFormed) :
    Text.Trimmed p.render.toList := by
  rw [toList_render]
  have hstages := trimmed_stagesText h.stages_ne_nil h.stages
  cases hr : p.redirect with
  | none => simpa using hstages
  | some r =>
    have htarget := (h.target r hr).isToken.trimmed
    have hmark : Text.Trimmed ['>'] := Text.trimmed_of_plain (by simp) (by simp [Text.isBlank])
    have hredirect := hmark.append (if r.append then ['>', ' '] else [' ']) htarget
    simpa [redirectText] using hstages.append [' '] hredirect

/-- A well-formed line is what its written form reads as. -/
theorem parse_complete {p : ParsedLine} (h : p.WellFormed) : parse p.render = .ok p := by
  have hrender := toList_render p
  have hnonempty : ¬ p.render.toList.isEmpty := by simpa using h.trimmed.ne_nil
  have hescapes := escapesFrom_stagesText h.stages_ne_nil h.stages
  unfold parse
  rw [Text.trim_of_trimmed h.trimmed]
  dsimp only
  rw [if_neg hnonempty, hrender]
  obtain ⟨stages, redirect⟩ := p
  cases redirect with
  | none =>
    have hread := readStages_stagesText [] (by simp) h.stages_ne_nil h.stages
    rw [List.append_nil] at hread
    have hscan : splitRedirect (stagesText stages) = none := splitRedirect_eq_iff.mpr hescapes
    rw [Option.elim_none, List.append_nil, hscan]
    dsimp only
    rw [hread]
    rfl
  | some r =>
    have hblank : EscapesFrom false (stagesText stages ++ [' ']) := by
      rw [escapesFrom_append]
      exact ⟨hescapes, escapesFrom_of_not_mem (by decide)⟩
    have hpending : pendingAfter false (stagesText stages ++ [' ']) = false :=
      pendingAfter_of_getLast? (by simp)
    have hread := readStages_stagesText [' '] (by simp) h.stages_ne_nil h.stages
    have hscan : splitRedirect (stagesText stages ++ [' '] ++ '>' :: redirectText r) =
        some (stagesText stages ++ [' '], redirectText r) :=
      splitRedirect_eq_iff.mpr ⟨rfl, hblank, hpending⟩
    rw [Option.elim_some, ← List.append_assoc, hscan]
    dsimp only
    rw [readRedirect_redirectText (h.target r rfl), Outcome.ok_bind, hread, Outcome.ok_bind,
      extendLast_nil]
    rfl

/-- Reading gives well-formed lines only, and writing one of them and reading it again gives it
back. So writing what was read of a line, words behind its redirect's target included, changes
nothing about how it reads. -/
theorem parse_inverse_render :
    (∀ line p, parse line = .ok p → p.isEmpty = false → p.WellFormed) ∧
      (∀ p : ParsedLine, p.WellFormed → parse p.render = .ok p) ∧
      ∀ line p, parse line = .ok p → parse p.render = .ok p := by
  refine ⟨?_, fun _ => parse_complete, ?_⟩
  · intro line p h hne
    rcases parse_sound h with rfl | hp
    · cases hne
    · exact hp
  · intro line p h
    rcases parse_sound h with rfl | hp
    · rfl
    · exact parse_complete hp

theorem parse_inverse_render_of_escapes :
    let p : ParsedLine := ⟨[["a\\>b"], ["c\\\\\\"], ["x", "y", "z"]], some ⟨"out", true⟩⟩
    parse "  a\\>b |c\\\\\\ |\tx >>out y  z" = .ok p ∧ p.isEmpty = false ∧ p.WellFormed ∧
      p.render = "a\\>b | c\\\\\\ | x y z >> out" ∧ parse p.render = .ok p := by
  intro p
  have hparse : parse "  a\\>b |c\\\\\\ |\tx >>out y  z" = .ok p := by rfl
  have hwell := parse_inverse_render.1 _ p hparse rfl
  exact ⟨hparse, rfl, hwell, by decide +kernel, parse_inverse_render.2.1 p hwell⟩

end Writing

end ShellTutor.ParsedLine
