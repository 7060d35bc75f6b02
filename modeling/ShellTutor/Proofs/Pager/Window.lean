import ShellTutor.Pager

/-!
# Pager windows

A pager has one number that moves, the line its window starts at, and its keys bound that number in
different ways: a page forward and a jump to the bottom stop at the last full page, while a search
may go on to any line. What they have in common is that the window starts at a line of the text and
that it was shown, so its end was not wrapped around. From this it follows that a page forward
leaves no line out and comes to the end.
-/

namespace ShellTutor

namespace Pager

/-- The pager after keys, if none of them closes it. -/
def handleAll (p : Pager) : List PagerKey → Option Pager
  | [] => some p
  | key :: rest => (p.handle key).2.bind fun q => q.handleAll rest

/-- A line in which a term occurs, once both are in lower case. -/
def Matches (term line : String) : Prop :=
  (Text.lowercase term).toList <:+: (Text.lowercase line).toList

/-- The pager that a search leaves which found a line. -/
def found (p : Pager) (term : String) (i : Nat) : Pager :=
  { p with start := i - 2, term := some term }

/-- A pager that was opened on a text, and is still open after keys. -/
structure Opened (title content : String) (pageSize : Nat) (p : Pager) : Prop where
  first : (ofText title content pageSize).renderFirst?.isSome
  keys : ∃ keys, (ofText title content pageSize).handleAll keys = some p

/-- There is room for a page of this size and two more lines. -/
def HasRoom (pageSize : Nat) : Prop :=
  lineSize * (pageSize + 2) ≤ roomLimit

instance (pageSize : Nat) : Decidable (HasRoom pageSize) :=
  inferInstanceAs (Decidable (lineSize * (pageSize + 2) ≤ roomLimit))

/-- What a pager shows, and how much of it at once. -/
structure SameText (p q : Pager) : Prop where
  title : q.title = p.title
  lines : q.lines = p.lines
  pageSize : q.pageSize = p.pageSize

/-- The text and the page have sizes that fit into words, and the window starts at a line of the
text, or at the start of an empty one. -/
structure Placed (p : Pager) : Prop where
  lines : p.lines.length ≤ roomLimit
  height : 0 < p.pageSize
  word : p.pageSize < wordModulus
  start : p.start = 0 ∨ p.start < p.lines.length

/-- A window that shows a part of the text, and at least a line of it if there is any. -/
structure Fits (p : Pager) (pageSize : Nat) : Prop where
  ordered : p.start ≤ p.stop
  inside : p.stop ≤ p.lines.length
  height : p.stop - p.start ≤ pageSize
  nonempty : 0 < p.lines.length → p.start < p.stop

/-- The lines of a window, in order, with the remembered term marked where it occurs. -/
structure Shows (p : Pager) (shown : List OutputLine) : Prop where
  texts : shown.map OutputLine.text = (p.lines.take p.stop).drop p.start
  kinds : ∀ line ∈ shown, line.kind = .pager
  marks : ∀ line ∈ shown, ∀ term, line.highlight = some term ↔
    p.term = some term ∧ Matches term line.text

/-- A window behind another: it starts later, with no line left out between the two, and shows more
of the end. -/
structure Follows (p q : Pager) : Prop where
  later : p.start < q.start
  gapless : q.start ≤ p.stop
  further : p.stop < q.stop

def endOfFile : OutputLine :=
  .notice "--- end of file ---"

def startOfFile : OutputLine :=
  .notice "--- start of file ---"

variable {p q : Pager} {key : PagerKey}

theorem SameText.trans {r : Pager} (h : p.SameText q) (h' : q.SameText r) : p.SameText r :=
  ⟨h'.title.trans h.title, h'.lines.trans h.lines, h'.pageSize.trans h.pageSize⟩

/-! ## What is shown -/

/-- A line of the window is marked with the remembered term just if the term occurs in it. -/
theorem highlight_showLine (p : Pager) (line term : String) :
    (p.showLine line).highlight = some term ↔ p.term = some term ∧ Matches term line := by
  rw [Matches, ← Text.occursIgnoringCase_iff]
  exact Option.filter_eq_some_iff

theorem exists_shown_render (p : Pager) :
    ∃ shown, p.render = .clear :: shown ++ [.notice p.footer] ∧ p.Shows shown := by
  refine ⟨p.window.map p.showLine, rfl, ?_, ?_, ?_⟩
  · rw [List.map_map]
    exact List.map_id _
  · intro line hline
    obtain ⟨text, -, rfl⟩ := List.mem_map.mp hline
    rfl
  · intro line hline term
    obtain ⟨text, -, rfl⟩ := List.mem_map.mp hline
    exact p.highlight_showLine text term

/-- What is shown of a window is never a message alone. -/
theorem render_ne_singleton (p : Pager) (line : OutputLine) : p.render ≠ [line] := by
  intro h
  have hlength := congrArg List.length h
  simp [render] at hlength

theorem shown?_of_canShow (h : p.canShow) : p.shown? = some (p.render, p) := by
  rw [shown?, render?, if_pos h, Option.map_some]

theorem shown?_eq_some_iff {lines : List OutputLine} :
    p.shown? = some (lines, q) ↔ p.canShow ∧ lines = p.render ∧ q = p := by
  rw [shown?, render?]
  cases p.canShow with
  | false => simp
  | true => simp [eq_comm]

theorem isSome_renderFirst? : p.renderFirst?.isSome = p.canShow := by
  rw [renderFirst?]
  cases p.canShow <;> rfl

/-! ## Keys -/

/-- What a key leads to while the pager stays open: the lines that are shown, and the pager. -/
inductive Leads (p : Pager) : PagerKey → List OutputLine → Pager → Prop
  | stays {key : PagerKey} {message : OutputLine} (hkind : message.kind ≠ .pager)
      (hplain : message.highlight = none) : Leads p key [message] p
  | moves {key : PagerKey} {start : Nat} (hkey : ∀ term, key ≠ .search term)
      (hstart : start ≤ p.start ∨ start ≤ p.lastStart) (hshow : (p.moveTo start).canShow) :
      Leads p key (p.moveTo start).render (p.moveTo start)
  | clears (hshow : { p with term := none }.canShow) :
      Leads p (.search "") { p with term := none }.render { p with term := none }
  | finds {term : String} {i : Nat} (hterm : term ≠ "") (hfound : p.findBelow term = some i)
      (hshow : (p.found term i).canShow) :
      Leads p (.search term) ((p.found term i).render ++ [.notice ("pattern found: " ++ term)])
        (p.found term i)

theorem handle_of_handle? {result : List OutputLine × Option Pager}
    (h : p.handle? key = some result) : p.handle key = result := by
  rw [handle, h, Option.getD_some]

theorem handle?_of_handle (h : (p.handle key).2 = some q) :
    p.handle? key = some ((p.handle key).1, some q) := by
  rw [handle] at h ⊢
  cases hkey : p.handle? key with
  | none => rw [hkey] at h; cases h
  | some result =>
    rw [hkey] at h
    exact congrArg some (Prod.ext rfl h)

theorem leads_of_handle? {lines : List OutputLine} (h : p.handle? key = some (lines, some q)) :
    p.Leads key lines q := by
  have hmoves {key : PagerKey} {start : Nat} {lines : List OutputLine} {q : Pager}
      (hkey : ∀ term, key ≠ .search term) (hstart : start ≤ p.start ∨ start ≤ p.lastStart)
      (hshown : (p.moveTo start).shown? = some (lines, q)) : p.Leads key lines q := by
    obtain ⟨hshow, rfl, rfl⟩ := shown?_eq_some_iff.mp hshown
    exact .moves hkey hstart hshow
  cases key with
  | quit => cases h
  | nextPage =>
    obtain ⟨⟨_, _⟩, hnext, heq⟩ := Option.map_eq_some_iff.mp h
    cases heq
    rw [next?] at hnext
    split at hnext
    · cases hnext
      exact .stays (by simp [OutputLine.notice]) rfl
    · exact hmoves nofun (Or.inr (Nat.min_le_right ..)) hnext
  | prevPage =>
    obtain ⟨⟨_, _⟩, hprev, heq⟩ := Option.map_eq_some_iff.mp h
    cases heq
    rw [prev?] at hprev
    split at hprev
    · cases hprev
      exact .stays (by simp [OutputLine.notice]) rfl
    · exact hmoves nofun (Or.inl (Nat.sub_le ..)) hprev
  | top =>
    obtain ⟨⟨_, _⟩, htop, heq⟩ := Option.map_eq_some_iff.mp h
    cases heq
    exact hmoves nofun (Or.inl (Nat.zero_le _)) htop
  | bottom =>
    obtain ⟨⟨_, _⟩, hbottom, heq⟩ := Option.map_eq_some_iff.mp h
    cases heq
    exact hmoves nofun (Or.inr (Nat.le_refl _)) hbottom
  | search term =>
    obtain ⟨⟨_, _⟩, hsearch, heq⟩ := Option.map_eq_some_iff.mp h
    cases heq
    rw [search?] at hsearch
    split at hsearch
    · rename_i hempty
      subst hempty
      obtain ⟨hshow, rfl, rfl⟩ := shown?_eq_some_iff.mp hsearch
      exact .clears hshow
    · rename_i hterm
      split at hsearch
      · rename_i i hfound
        obtain ⟨⟨_, _⟩, hshown, heq⟩ := Option.map_eq_some_iff.mp hsearch
        cases heq
        obtain ⟨hshow, rfl, rfl⟩ := shown?_eq_some_iff.mp hshown
        exact .finds hterm hfound hshow
      · cases hsearch
        exact .stays (by simp [OutputLine.error]) rfl
  | unknown other =>
    cases h
    exact .stays (by simp [OutputLine.notice]) rfl

/-- Only one key closes the pager. -/
theorem eq_quit_of_handle? {lines : List OutputLine} (h : p.handle? key = some (lines, none)) :
    key = .quit := by
  cases key with
  | quit => rfl
  | unknown other => cases h
  | nextPage | prevPage | top | bottom | search term =>
    obtain ⟨_, _, heq⟩ := Option.map_eq_some_iff.mp h
    cases congrArg Prod.snd heq

theorem leads_of_handle (h : (p.handle key).2 = some q) : p.Leads key (p.handle key).1 q :=
  leads_of_handle? (handle?_of_handle h)

theorem Leads.sameText {lines : List OutputLine} (h : p.Leads key lines q) : p.SameText q := by
  cases h <;> exact ⟨rfl, rfl, rfl⟩

/-- A match is a line of the text below the top line. -/
theorem lt_of_findBelow {term : String} {i : Nat} (h : p.findBelow term = some i) :
    p.start < i ∧ i < p.lines.length := by
  obtain ⟨k, hk, rfl⟩ := Option.map_eq_some_iff.mp h
  obtain ⟨hlt, -⟩ := List.findIdx?_eq_some_iff_getElem.mp hk
  rw [List.length_drop] at hlt
  omega

theorem Leads.canShow {lines : List OutputLine} (h : p.Leads key lines q) (hp : p.canShow) :
    q.canShow := by
  cases h with
  | stays => exact hp
  | moves _ _ hshow => exact hshow
  | clears hshow => exact hshow
  | finds _ _ hshow => exact hshow

theorem Placed.moveTo (hp : p.Placed) {start : Nat} (h : start ≤ p.start ∨ start ≤ p.lastStart) :
    (p.moveTo start).Placed := by
  obtain ⟨hlines, hheight, hword, hstart⟩ := hp
  refine ⟨hlines, hheight, hword, ?_⟩
  simp only [lastStart, Pager.moveTo] at h ⊢
  omega

theorem Placed.of_findBelow (hp : p.Placed) (term : String) {i : Nat}
    (h : p.findBelow term = some i) : (p.found term i).Placed := by
  have hbelow := lt_of_findBelow h
  refine ⟨hp.lines, hp.height, hp.word, Or.inr ?_⟩
  simp only [found]
  omega

/-- Whatever the key, the window stays a window of the same text. -/
theorem Placed.of_leads {lines : List OutputLine} (hp : p.Placed) (h : p.Leads key lines q) :
    q.Placed := by
  cases h with
  | stays => exact hp
  | moves _ hbound _ => exact hp.moveTo hbound
  | clears => exact ⟨hp.lines, hp.height, hp.word, hp.start⟩
  | finds _ hfound _ => exact hp.of_findBelow _ hfound

/-- What holds of a pager while it is open. -/
structure Open (p : Pager) : Prop extends p.Placed where
  canShow : p.canShow

theorem Open.of_leads {lines : List OutputLine} (hp : p.Open) (h : p.Leads key lines q) : q.Open :=
  ⟨hp.toPlaced.of_leads h, h.canShow hp.canShow⟩

theorem Open.of_handleAll {keys : List PagerKey} (hp : p.Open) (h : p.handleAll keys = some q) :
    q.Open ∧ p.SameText q := by
  induction keys generalizing p with
  | nil =>
    obtain rfl : p = q := Option.some.inj h
    exact ⟨hp, rfl, rfl, rfl⟩
  | cons key rest ih =>
    obtain ⟨r, hfirst, hrest⟩ := Option.bind_eq_some_iff.mp h
    have hleads := leads_of_handle hfirst
    obtain ⟨hq, hsame⟩ := ih (hp.of_leads hleads) hrest
    exact ⟨hq, hleads.sameText.trans hsame⟩

theorem canShow_iff : p.canShow ↔
    lineSize * wordSum p.pageSize 2 ≤ roomLimit ∧ p.start ≤ p.stop := by
  rw [canShow, Bool.and_eq_true, decide_eq_true_eq, decide_eq_true_eq]

/-- A window that is shown has not been wrapped around. -/
theorem Open.stop_eq (hp : p.Open) : wordSum p.start p.pageSize = p.start + p.pageSize ∧
    p.stop = min (p.start + p.pageSize) p.lines.length := by
  obtain ⟨⟨hlines, hheight, hword, hstart⟩, hshow⟩ := hp
  have hordered := (canShow_iff.mp hshow).2
  have hsum : wordSum p.start p.pageSize = p.start + p.pageSize := by
    rw [stop, wordSum, wordModulus] at hordered
    rw [wordModulus] at hword
    rw [roomLimit] at hlines
    rw [wordSum, wordModulus]
    omega
  exact ⟨hsum, by rw [stop, hsum]⟩

/-- A window of the text can be shown if its end is not too far away. -/
theorem Placed.canShow_of (hp : p.Placed) (hroom : lineSize * wordSum p.pageSize 2 ≤ roomLimit)
    (hnear : p.start + p.pageSize < wordModulus) : p.canShow := by
  obtain ⟨hlines, hheight, hword, hstart⟩ := hp
  refine canShow_iff.mpr ⟨hroom, ?_⟩
  rw [stop, wordSum, Nat.mod_eq_of_lt hnear]
  omega

/-- From an open pager, no key but a search can lead to a window that cannot be shown. -/
theorem Open.moveTo (hp : p.Open) {start : Nat} (h : start ≤ p.start ∨ start ≤ p.lastStart) :
    (p.moveTo start).Open := by
  have hnear : (p.moveTo start).start + (p.moveTo start).pageSize < wordModulus := by
    obtain ⟨hsum, -⟩ := hp.stop_eq
    have hlines := hp.lines
    have hword := hp.word
    rw [wordSum, wordModulus] at hsum
    rw [roomLimit] at hlines
    rw [wordModulus] at hword ⊢
    simp only [Pager.moveTo, lastStart] at h ⊢
    omega
  have hplaced := hp.toPlaced.moveTo h
  exact ⟨hplaced, hplaced.canShow_of (canShow_iff.mp hp.canShow).1 hnear⟩

theorem HasRoom.word {pageSize : Nat} (h : HasRoom pageSize) : pageSize < wordModulus := by
  rw [HasRoom, lineSize, roomLimit] at h
  rw [wordModulus]
  omega

theorem HasRoom.wordSum_le {pageSize : Nat} (h : HasRoom pageSize) :
    lineSize * wordSum pageSize 2 ≤ roomLimit := by
  rw [HasRoom, lineSize, roomLimit] at h
  rw [wordSum, wordModulus, lineSize, roomLimit]
  omega

/-- If there is room for a page, a search finds nothing that cannot be shown. -/
theorem Placed.canShow_of_hasRoom (hp : p.Placed) (hroom : HasRoom p.pageSize) : p.canShow := by
  refine hp.canShow_of hroom.wordSum_le ?_
  obtain ⟨hlines, hheight, hword, hstart⟩ := hp
  rw [HasRoom, lineSize, roomLimit] at hroom
  rw [roomLimit] at hlines
  rw [wordModulus]
  omega

theorem placed_ofText {title content : String} {pageSize : Nat}
    (hlines : (Text.lines content).length ≤ roomLimit) (hword : pageSize < wordModulus) :
    (ofText title content pageSize).Placed :=
  ⟨hlines, Nat.le_max_right pageSize 1, Nat.max_lt.mpr ⟨hword, by decide⟩, Or.inl rfl⟩

theorem Opened.isOpen {title content : String} {pageSize : Nat}
    (h : Opened title content pageSize p) (hlines : (Text.lines content).length ≤ roomLimit)
    (hword : pageSize < wordModulus) : p.Open ∧ (ofText title content pageSize).SameText p := by
  obtain ⟨keys, hkeys⟩ := h.keys
  have hfirst : (ofText title content pageSize).Open :=
    ⟨placed_ofText hlines hword, isSome_renderFirst?.symm.trans h.first⟩
  exact hfirst.of_handleAll hkeys

theorem Open.fits (hp : p.Open) : p.Fits p.pageSize := by
  obtain ⟨-, hstop⟩ := hp.stop_eq
  have hheight := hp.height
  have hstart := hp.start
  constructor <;> rw [hstop] <;> omega

/-! ## Turning pages -/

/-- A window at the end of the text is the last one. -/
theorem Open.next_of_end (hp : p.Open) (h : p.stop = p.lines.length) :
    p.handle? .nextPage = some ([endOfFile], some p) := by
  obtain ⟨hsum, hstop⟩ := hp.stop_eq
  have hlast : min (wordSum p.start p.pageSize) p.lastStart ≤ p.start := by
    rw [hsum, lastStart]
    omega
  have hnext : p.next? = some ([endOfFile], p) := if_pos hlast
  rw [handle?, hnext]
  rfl

/-- A window before the end has another one behind it. -/
theorem Open.next_of_not_end (hp : p.Open) (h : p.stop ≠ p.lines.length) :
    ∃ q, p.handle? .nextPage = some (q.render, some q) ∧ q.Open ∧ p.Follows q := by
  obtain ⟨hsum, hstop⟩ := hp.stop_eq
  have hheight := hp.height
  have hmore : ¬ min (wordSum p.start p.pageSize) p.lastStart ≤ p.start := by
    rw [hsum, lastStart]
    omega
  have hq : (p.moveTo (min (wordSum p.start p.pageSize) p.lastStart)).Open :=
    hp.moveTo (Or.inr (Nat.min_le_right ..))
  have hnext : p.next? = (p.moveTo (min (wordSum p.start p.pageSize) p.lastStart)).shown? :=
    if_neg hmore
  refine ⟨_, by rw [handle?, hnext, shown?_of_canShow hq.canShow]; rfl, hq, ?_⟩
  obtain ⟨-, hstop'⟩ := hq.stop_eq
  rw [hsum, lastStart] at hmore
  constructor
  · simp only [Pager.moveTo, lastStart, hsum]
    omega
  · simp only [Pager.moveTo, lastStart, hsum, hstop]
    omega
  · rw [hstop', hstop]
    simp only [Pager.moveTo, lastStart, hsum]
    omega

/-- Some page forward is the last, and the windows on the way leave no line out. -/
theorem Open.exists_end (hp : p.Open) :
    ∃ count last, p.handleAll (List.replicate count .nextPage) = some last ∧
      last.stop = p.lines.length ∧
      ∀ i, p.start ≤ i → i < p.lines.length → ∃ before ≤ count, ∃ window,
        p.handleAll (List.replicate before .nextPage) = some window ∧
          window.start ≤ i ∧ i < window.stop := by
  -- on the lines below the window, of which each page forward leaves fewer
  induction hleft : p.lines.length - p.stop using Nat.strongRecOn generalizing p with
  | _ left ih =>
    by_cases hend : p.stop = p.lines.length
    · exact ⟨0, p, rfl, hend, fun i hi hlt => ⟨0, Nat.le_refl 0, p, rfl, hi, by omega⟩⟩
    · obtain ⟨q, hnext, hq, hfollows⟩ := hp.next_of_not_end hend
      have hstep : (p.handle .nextPage).2 = some q := by rw [handle_of_handle? hnext]
      have hmore : ∀ count, p.handleAll (List.replicate (count + 1) .nextPage) =
          q.handleAll (List.replicate count .nextPage) := by
        intro count
        rw [List.replicate_succ, Pager.handleAll, hstep, Option.bind_some]
      have hlines := (leads_of_handle? hnext).sameText.lines
      have hinside := hp.fits.inside
      have hfewer := hfollows.further
      obtain ⟨count, last, hlast, hstop, hcovers⟩ :=
        ih (q.lines.length - q.stop) (by rw [hlines]; omega) hq rfl
      rw [hlines] at hstop hcovers
      refine ⟨count + 1, last, (hmore count).trans hlast, hstop, fun i hi hlt => ?_⟩
      by_cases hshown : i < p.stop
      · exact ⟨0, Nat.zero_le _, p, rfl, hi, hshown⟩
      · have hbehind : q.start ≤ i := Nat.le_trans hfollows.gapless (Nat.le_of_not_lt hshown)
        obtain ⟨before, hbefore, window, hwindow, hin⟩ := hcovers i hbehind hlt
        exact ⟨before + 1, Nat.succ_le_succ hbefore, window, (hmore before).trans hwindow, hin⟩

/-- Turning pages forward from a window. -/
structure TurnsForward (p : Pager) : Prop where
  /-- The end is reported just where it is shown, -/
  reports : (∃ next, p.handle? .nextPage = some ([endOfFile], next)) ↔ p.stop = p.lines.length
  /-- and nothing moves then. -/
  stays : p.stop = p.lines.length → p.handle? .nextPage = some ([endOfFile], some p)
  moves : p.stop ≠ p.lines.length →
    ∃ q, p.handle? .nextPage = some (q.render, some q) ∧ p.Follows q
  /-- Going on, the end is shown at last, and each line on the way has been. -/
  comesToEnd : ∃ count last, p.handleAll (List.replicate count .nextPage) = some last ∧
    last.stop = p.lines.length ∧
    ∀ i, p.start ≤ i → i < p.lines.length → ∃ before ≤ count, ∃ window,
      p.handleAll (List.replicate before .nextPage) = some window ∧
        window.start ≤ i ∧ i < window.stop

/-- Turning pages back from a window. -/
structure TurnsBack (p : Pager) : Prop where
  reports : (∃ next, p.handle? .prevPage = some ([startOfFile], next)) ↔ p.start = 0
  stays : p.start = 0 → p.handle? .prevPage = some ([startOfFile], some p)
  moves : p.start ≠ 0 → ∃ q, p.handle? .prevPage = some (q.render, some q) ∧ q.start < p.start

theorem Open.turnsForward (hp : p.Open) : p.TurnsForward := by
  refine ⟨⟨?_, fun hend => ⟨_, hp.next_of_end hend⟩⟩, hp.next_of_end, fun hend => ?_, hp.exists_end⟩
  · rintro ⟨next, hreport⟩
    refine Decidable.byContradiction fun hend => ?_
    obtain ⟨q, hnext, -⟩ := hp.next_of_not_end hend
    rw [hnext, Option.some.injEq, Prod.mk.injEq] at hreport
    exact q.render_ne_singleton _ hreport.1
  · obtain ⟨q, hnext, -, hfollows⟩ := hp.next_of_not_end hend
    exact ⟨q, hnext, hfollows⟩

theorem Open.turnsBack (hp : p.Open) : p.TurnsBack := by
  have hstays : p.start = 0 → p.handle? .prevPage = some ([startOfFile], some p) := by
    intro hstart
    have hprev : p.prev? = some ([startOfFile], p) := if_pos hstart
    rw [handle?, hprev]
    rfl
  have hmoves : p.start ≠ 0 →
      ∃ q, p.handle? .prevPage = some (q.render, some q) ∧ q.start < p.start := by
    intro hstart
    have hq : (p.moveTo (p.start - p.pageSize)).Open := hp.moveTo (Or.inl (Nat.sub_le ..))
    have hprev : p.prev? = (p.moveTo (p.start - p.pageSize)).shown? := if_neg hstart
    refine ⟨_, by rw [handle?, hprev, shown?_of_canShow hq.canShow]; rfl, ?_⟩
    have hheight := hp.height
    simp only [Pager.moveTo]
    omega
  refine ⟨⟨?_, fun hstart => ⟨_, hstays hstart⟩⟩, hstays, hmoves⟩
  rintro ⟨next, hreport⟩
  refine Decidable.byContradiction fun hstart => ?_
  obtain ⟨q, hprev, -⟩ := hmoves hstart
  rw [hprev, Option.some.injEq, Prod.mk.injEq] at hreport
  exact q.render_ne_singleton _ hreport.1

/-- If there is room for a page, each key has a result. -/
theorem Open.isSome_handle? (hp : p.Open) (hroom : HasRoom p.pageSize) (key : PagerKey) :
    (p.handle? key).isSome := by
  have hmoves {start : Nat} (h : start ≤ p.start ∨ start ≤ p.lastStart) :
      (p.moveTo start).shown?.isSome := by
    rw [shown?_of_canShow (hp.moveTo h).canShow]
    rfl
  cases key with
  | quit => rfl
  | nextPage =>
    rw [handle?, Option.isSome_map, next?]
    split
    · rfl
    · exact hmoves (Or.inr (Nat.min_le_right ..))
  | prevPage =>
    rw [handle?, Option.isSome_map, prev?]
    split
    · rfl
    · exact hmoves (Or.inl (Nat.sub_le ..))
  | top => rw [handle?, Option.isSome_map]; exact hmoves (Or.inl (Nat.zero_le _))
  | bottom => rw [handle?, Option.isSome_map]; exact hmoves (Or.inr (Nat.le_refl _))
  | search term =>
    rw [handle?, Option.isSome_map, search?]
    split
    · rw [shown?_of_canShow (p := { p with term := none }) hp.canShow]
      rfl
    · split
      · rename_i i hfound
        rw [Option.isSome_map]
        exact Option.isSome_map.trans (Option.isSome_of_eq_some
          (if_pos ((hp.toPlaced.of_findBelow term hfound).canShow_of_hasRoom hroom)))
      · rfl
  | unknown other => rfl

/-- Whatever the text, the size of a page and the keys since the pager was opened: the window shows
a part of the text, in order and with the footer below it, that is no longer than a page and not
empty unless the text is. The next page is refused just at the end, and otherwise is a later window
that leaves no line out, so that going on comes to the end. The page before is refused just at the
start, and otherwise is an earlier one. If there is room for a page and two lines, the pager opens,
and each key has a result. -/
theorem window_of_handled {title content : String} {pageSize : Nat}
    (hlines : (Text.lines content).length ≤ roomLimit) (hword : pageSize < wordModulus) :
    (HasRoom (max pageSize 1) → (ofText title content pageSize).renderFirst?.isSome) ∧
    ∀ p, Opened title content pageSize p →
      p.lines = Text.lines content ∧ p.Fits (max pageSize 1) ∧
      (∃ shown, p.render? = some (.clear :: shown ++ [.notice p.footer]) ∧ p.Shows shown) ∧
      p.TurnsForward ∧ p.TurnsBack ∧
      (HasRoom (max pageSize 1) → ∀ key, (p.handle? key).isSome) := by
  refine ⟨fun hroom => ?_, fun p hopened => ?_⟩
  · exact isSome_renderFirst?.trans ((placed_ofText hlines hword).canShow_of_hasRoom hroom)
  · obtain ⟨hp, hsame⟩ := hopened.isOpen hlines hword
    have hsize : p.pageSize = max pageSize 1 := hsame.pageSize
    refine ⟨hsame.lines, hsize ▸ hp.fits, ?_, hp.turnsForward, hp.turnsBack, fun hroom => ?_⟩
    · obtain ⟨shown, hrender, hshows⟩ := p.exists_shown_render
      exact ⟨shown, by rw [render?, if_pos hp.canShow, hrender], hshows⟩
    · exact hp.isSome_handle? (hsize ▸ hroom)

/-- A search leaves the window close to the end, where there is no full page. -/
theorem window_of_handled_past_last_page :
    ∃ p, Opened "poem" "one\ntwo\nthree\nfour\nfive" 3 p ∧ p.start = 2 ∧ p.start < p.stop ∧
      p.handle? .nextPage = some ([endOfFile], some p) := by
  obtain ⟨p, hp, hstart, hstop⟩ : ∃ p, Opened "poem" "one\ntwo\nthree\nfour\nfive" 3 p ∧
      p.start = 2 ∧ p.stop = p.lines.length := by
    refine ⟨⟨"poem", ["one", "two", "three", "four", "five"], 2, 3, some "five"⟩, ⟨?_, ?_⟩, rfl,
      by decide⟩
    · decide +kernel
    · exact ⟨[.search "FIVE", .prevPage, .search "five", .unknown "x"], by decide +kernel⟩
  obtain ⟨hlines, hfits, -, hforward, -⟩ :=
    (window_of_handled (by decide +kernel) (by decide)).2 p hp
  have hsome : 0 < p.lines.length := by
    rw [hlines]
    decide +kernel
  exact ⟨p, hp, hstart, hfits.nonempty hsome, hforward.stays hstop⟩

/-- A page may have a size for which there is no room, and then the pager does not open. -/
theorem not_opened_without_room :
    ∃ pageSize, pageSize < wordModulus ∧ (ofText "note" "milk\neggs" pageSize).renderFirst? = none :=
  ⟨9223372036854775807, by decide, by decide +kernel⟩

end Pager

end ShellTutor
