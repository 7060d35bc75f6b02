import ShellTutor.Proofs.Pager.Window

/-!
# Searching in a pager

A search goes to the first line below the top of the window in which the term occurs, whatever the
letter case, and the term is marked from then on, until another search finds something or clears it.
The window is moved to two lines above the line that was found, so a page of one or two lines ends
before it, unless it is the first page.
-/

namespace ShellTutor

namespace Pager

/-- The first line with a term below the top line of the window. -/
structure FirstBelow (p : Pager) (term : String) (i : Nat) : Prop where
  below : p.start < i
  occurs : ∃ line, p.lines[i]? = some line ∧ Matches term line
  first : ∀ j line, p.start < j → j < i → p.lines[j]? = some line → ¬ Matches term line

/-- A key other than a search that finds something or clears the term. -/
def KeepsTerm (p : Pager) (key : PagerKey) : Prop :=
  ∀ term, key = .search term → term ≠ "" ∧ ∀ i, ¬ p.FirstBelow term i

/-- What a pager can become before a search finds something or clears the term. -/
inductive Browsed (p : Pager) : Pager → Prop
  | refl : Browsed p p
  | step {q r : Pager} {key : PagerKey} (h : Browsed p q) (hkeep : q.KeepsTerm key)
      (hnext : (q.handle key).2 = some r) : Browsed p r

variable {p q : Pager} {term : String} {i : Nat}

/-- A line below the top line is one of those that are searched. -/
theorem getElem?_drop_below {line : String} {j : Nat} (hj : p.start < j) :
    (p.lines.drop (p.start + 1))[j - (p.start + 1)]? = some line ↔ p.lines[j]? = some line := by
  rw [List.getElem?_drop, Nat.add_sub_cancel' hj]

theorem findBelow_eq_some_iff : p.findBelow term = some i ↔ p.FirstBelow term i := by
  rw [findBelow, Option.map_eq_some_iff]
  constructor
  · rintro ⟨k, hk, rfl⟩
    obtain ⟨hlt, hmatch, hfirst⟩ := List.findIdx?_eq_some_iff_getElem.mp hk
    refine ⟨by omega, ⟨_, ?_, (Text.occursIgnoringCase_iff _ _).mp hmatch⟩, ?_⟩
    · rw [List.getElem_drop, List.getElem?_eq_getElem]
    · intro j line hj hlater hline hmatches
      have hearlier : j - (p.start + 1) < k := by omega
      obtain ⟨hin, rfl⟩ := List.getElem?_eq_some_iff.mp ((getElem?_drop_below hj).mpr hline)
      exact hfirst _ hearlier ((Text.occursIgnoringCase_iff _ _).mpr hmatches)
  · rintro ⟨hbelow, ⟨line, hline, hmatches⟩, hfirst⟩
    refine ⟨i - (p.start + 1), List.findIdx?_eq_some_iff_getElem.mpr ?_, by omega⟩
    obtain ⟨hin, rfl⟩ := List.getElem?_eq_some_iff.mp ((getElem?_drop_below hbelow).mpr hline)
    refine ⟨hin, (Text.occursIgnoringCase_iff _ _).mpr hmatches, fun k hk hmatch => ?_⟩
    refine hfirst (p.start + 1 + k) _ (by omega) (by omega) ?_
      ((Text.occursIgnoringCase_iff _ _).mp hmatch)
    rw [List.getElem_drop, List.getElem?_eq_getElem]

theorem findBelow_eq_none_iff :
    p.findBelow term = none ↔
      ∀ i line, p.start < i → p.lines[i]? = some line → ¬ Matches term line := by
  rw [findBelow, Option.map_eq_none_iff, List.findIdx?_eq_none_iff]
  constructor
  · intro hnone i line hi hline hmatches
    have hmem := List.mem_of_getElem? ((getElem?_drop_below hi).mpr hline)
    have hmatch := hnone line hmem
    rw [(Text.occursIgnoringCase_iff _ _).mpr hmatches] at hmatch
    cases hmatch
  · intro hnone line hmem
    obtain ⟨k, hk⟩ := List.getElem?_of_mem hmem
    rw [List.getElem?_drop] at hk
    rw [← Bool.not_eq_true, Text.occursIgnoringCase_iff]
    exact hnone _ line (by omega) hk

/-- A search that finds something shows the window it moves to, if that can be shown. -/
theorem search_of_firstBelow (hterm : term ≠ "") (h : p.FirstBelow term i) :
    p.handle? (.search term) = (p.found term i).render?.map fun shown =>
      (shown ++ [.notice ("pattern found: " ++ term)], some (p.found term i)) := by
  rw [handle?, search?, if_neg hterm, findBelow_eq_some_iff.mpr h]
  have hshown : (p.found term i).shown? = (p.found term i).render?.map fun shown =>
      (shown, p.found term i) := rfl
  dsimp only
  rw [← found, hshown]
  cases (p.found term i).render? <;> rfl

theorem search_of_none (hterm : term ≠ "")
    (h : ∀ i line, p.start < i → p.lines[i]? = some line → ¬ Matches term line) :
    p.handle? (.search term) = some ([.error ("pattern not found: " ++ term)], some p) := by
  rw [handle?, search?, if_neg hterm, findBelow_eq_none_iff.mpr h]
  rfl

theorem search_of_empty (p : Pager) :
    p.handle? (.search "") = { p with term := none }.render?.map fun shown =>
      (shown, some { p with term := none }) := by
  rw [handle?, search?, if_pos rfl, shown?]
  cases { p with term := none }.render? <;> rfl

/-- Where a line of the window stands in what is shown. -/
theorem getElem?_render {line : String} (hstart : p.start ≤ i) (hstop : i < p.stop)
    (hline : p.lines[i]? = some line) :
    p.render[i - p.start + 1]? = some (p.showLine line) := by
  have hwindow : p.window[i - p.start]? = some line := by
    rw [window, List.getElem?_drop, Nat.add_sub_cancel' hstart, List.getElem?_take_of_lt hstop,
      hline]
  obtain ⟨hin, -⟩ := List.getElem?_eq_some_iff.mp hwindow
  rw [render, List.cons_append, List.getElem?_cons_succ,
    List.getElem?_append_left (by rwa [List.length_map]), List.getElem?_map, hwindow]
  rfl

/-- A key that keeps the term leads to a window that is shown, or gives a message and changes
nothing. -/
theorem Leads.of_keepsTerm {key : PagerKey} {lines : List OutputLine} (h : p.Leads key lines q)
    (hkeep : p.KeepsTerm key) :
    q.term = p.term ∧ q.lines = p.lines ∧
      (q.render? = some lines ∨ q = p ∧ ∃ message, lines = [message] ∧ message.kind ≠ .pager) := by
  cases h with
  | stays hkind => exact ⟨rfl, rfl, Or.inr ⟨rfl, _, rfl, hkind⟩⟩
  | moves _ _ hshow => exact ⟨rfl, rfl, Or.inl (if_pos hshow)⟩
  | clears => exact absurd rfl (hkeep "" rfl).1
  | finds _ hfound => exact absurd (findBelow_eq_some_iff.mp hfound) ((hkeep _ rfl).2 _)

theorem Browsed.keeps (h : p.Browsed q) : q.term = p.term ∧ q.lines = p.lines := by
  induction h with
  | refl => exact ⟨rfl, rfl⟩
  | step _ hkeep hnext ih =>
    obtain ⟨hterm, hlines, -⟩ := (leads_of_handle hnext).of_keepsTerm hkeep
    exact ⟨hterm.trans ih.1, hlines.trans ih.2⟩

/-- All that searching does to a pager, and what is shown of it afterwards. -/
structure Searches (p : Pager) : Prop where
  /-- The window moves to the first line found below its top, less two, and the term is kept. -/
  hit : ∀ term i, term ≠ "" → p.FirstBelow term i →
    p.handle? (.search term) = (p.found term i).render?.map fun shown =>
      (shown ++ [.notice ("pattern found: " ++ term)], some (p.found term i))
  /-- Without such a line there is an error, and nothing changes. -/
  miss : ∀ term, term ≠ "" →
    (∀ i line, p.start < i → p.lines[i]? = some line → ¬ Matches term line) →
      p.handle? (.search term) = some ([.error ("pattern not found: " ++ term)], some p)
  /-- The empty term is forgotten, and nothing else changes. -/
  clear : p.handle? (.search "") = { p with term := none }.render?.map fun shown =>
    (shown, some { p with term := none })
  /-- If there is room for a page, each search has a result. -/
  returns : ∀ title content pageSize, Opened title content pageSize p →
    (Text.lines content).length ≤ roomLimit → HasRoom (max pageSize 1) →
      ∀ term, (p.handle? (.search term)).isSome
  /-- Until a search finds something or clears the term, the term stays what it is, each key shows
  the window that it leads to or a message, -/
  browsed : ∀ q, p.Browsed q → q.term = p.term ∧ q.lines = p.lines ∧
    ∀ key lines r, q.KeepsTerm key → q.handle? key = some (lines, some r) →
      r.render? = some lines ∨ r = q ∧ ∃ message, lines = [message] ∧ message.kind ≠ .pager
  /-- and the lines of every window are shown in order, with the term marked where it occurs. -/
  shown : ∀ q, p.Browsed q → ∀ lines, q.render? = some lines →
    ∃ shown, lines = .clear :: shown ++ [.notice q.footer] ∧ q.Shows shown

/-- A search moves the window to the first line with the term and remembers the term, and a miss
changes nothing. The remembered term stays through all other keys, and what is shown marks it in
just those lines in which it occurs. -/
theorem searches (p : Pager) : p.Searches where
  hit _ _ hterm h := search_of_firstBelow hterm h
  miss _ hterm h := search_of_none hterm h
  clear := p.search_of_empty
  returns title content pageSize hopened hlines hroom term := by
    have hword := Nat.lt_of_le_of_lt (Nat.le_max_left pageSize 1) hroom.word
    obtain ⟨hp, hsame⟩ := hopened.isOpen hlines hword
    exact hp.isSome_handle? (hsame.pageSize ▸ hroom) (.search term)
  browsed q h := by
    obtain ⟨hterm, hlines⟩ := h.keeps
    refine ⟨hterm, hlines, fun key lines r hkeep hnext => ?_⟩
    exact ((leads_of_handle? hnext).of_keepsTerm hkeep).2.2
  shown q _ lines hlines := by
    obtain ⟨-, hrender⟩ := (Option.ite_none_right_eq_some ..).mp hlines
    exact Option.some.inj hrender ▸ q.exists_shown_render

/-- The end of a window may be wrapped around to a line above its start, and then a search has found
a line and cannot show it. -/
theorem search_wraps_around :
    ∃ p, p = ofText "year" "spring\nsummer\nautumn\nwinter" 18446744073709551615 ∧
      p.renderFirst?.isSome ∧ p.FirstBelow "winter" 3 ∧ p.handle? (.search "winter") = none :=
  ⟨_, rfl, by decide +kernel, findBelow_eq_some_iff.mp (by decide +kernel), by decide +kernel⟩

/-- A search that finds something moves the window to two lines above the match. The match is in
the window just if a page has three lines or the match is on the first page, and there the term is
marked in it. -/
theorem search_shows_match {title content : String} {pageSize : Nat}
    (hopened : Opened title content pageSize p) (hlines : (Text.lines content).length ≤ roomLimit)
    (hheight : 0 < pageSize) (hroom : HasRoom pageSize) (hterm : term ≠ "")
    (h : p.FirstBelow term i) :
    ∃ q shown line, p.handle? (.search term) =
        some (shown ++ [.notice ("pattern found: " ++ term)], some q) ∧
      q.render? = some shown ∧ p.lines[i]? = some line ∧ q.start = i - 2 ∧
      (i < q.stop ↔ 3 ≤ pageSize ∨ i < pageSize) ∧
      (i < q.stop → shown[i - q.start + 1]? = some ⟨line, .pager, some term⟩) := by
  obtain ⟨hp, hsame⟩ := hopened.isOpen hlines hroom.word
  have hsize : p.pageSize = pageSize := hsame.pageSize.trans (Nat.max_eq_left hheight)
  obtain ⟨line, hline, hmatches⟩ := h.occurs
  obtain ⟨hin, -⟩ := List.getElem?_eq_some_iff.mp hline
  have hplaced := hp.toPlaced.of_findBelow term (findBelow_eq_some_iff.mpr h)
  have hfound : (p.found term i).Open := ⟨hplaced, hplaced.canShow_of_hasRoom (hsize ▸ hroom)⟩
  have hrender : (p.found term i).render? = some (p.found term i).render := if_pos hfound.canShow
  refine ⟨p.found term i, _, line, ?_, hrender, hline, rfl, ?_, fun hstop => ?_⟩
  · rw [search_of_firstBelow hterm h, hrender, Option.map_some]
  · have hbelow := h.below
    rw [hfound.stop_eq.2]
    simp only [found, hsize]
    omega
  · have hmarked : (p.found term i).showLine line = ⟨line, .pager, some term⟩ :=
      congrArg (OutputLine.mk line .pager)
        (((p.found term i).highlight_showLine line term).mpr ⟨rfl, hmatches⟩)
    rw [getElem?_render (Nat.sub_le i 2) hstop hline, hmarked]

theorem search_shows_match_of_last_line :
    ∃ p q shown, Opened "year" "spring\nsummer\nautumn\nwinter" 3 p ∧
      p.FirstBelow "WINTER" 3 ∧
      p.handle? (.search "WINTER") =
        some (shown ++ [.notice ("pattern found: " ++ "WINTER")], some q) ∧
      q.start = 1 ∧ 3 < q.stop ∧ shown[3]? = some ⟨"winter", .pager, some "WINTER"⟩ := by
  obtain ⟨p, hp⟩ : ∃ p, p = ofText "year" "spring\nsummer\nautumn\nwinter" 3 := ⟨_, rfl⟩
  have hopened : Opened "year" "spring\nsummer\nautumn\nwinter" 3 p :=
    ⟨by decide +kernel, [], congrArg some hp.symm⟩
  have hfirst : p.FirstBelow "WINTER" 3 :=
    findBelow_eq_some_iff.mp (by rw [hp]; decide +kernel)
  have hlast : p.lines[3]? = some "winter" := by
    rw [hp]
    decide +kernel
  obtain ⟨q, shown, line, hsearch, -, hline, hstart, hwindow, hmarked⟩ :=
    search_shows_match hopened (by decide +kernel) (by decide) (by decide) (by decide) hfirst
  obtain rfl : line = "winter" := Option.some.inj (hline.symm.trans hlast)
  have hstop : 3 < q.stop := hwindow.mpr (Or.inl (Nat.le_refl 3))
  have hshown := hmarked hstop
  rw [hstart] at hshown
  exact ⟨p, q, shown, hopened, hfirst, hsearch, hstart, hstop, hshown⟩

/-- On a page of one line the window ends above the line that was found. -/
theorem search_hides_match :
    ∃ p, p = ofText "year" "spring\nsummer\nautumn\nwinter" 1 ∧ p.FirstBelow "winter" 3 ∧
      (p.handle? (.search "winter")).map Prod.fst =
        some [.clear, .pager "summer", .notice "50% (2/4)", .notice "pattern found: winter"] :=
  ⟨_, rfl, findBelow_eq_some_iff.mp (by decide +kernel), by decide +kernel⟩

end Pager

end ShellTutor
