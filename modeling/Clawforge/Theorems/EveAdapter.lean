import Clawforge.Sensors.EveAdapter
import Mathlib

/-!
# No line is lost silently

As long as no `read_step` has raised, the lines the adapter counted are the first that
were written, each counted once (`loses_nothing_along`). The cursor moves from a
drained file to the file that is at the path then, and starts at the file at the path;
so this needs that no file in between has a complete line, and that none is completed
behind the cursor. Two rotations between two steps pass a file over without an error
(`rotated_twice`).
-/

namespace Clawforge.EveAdapter

open Kit PyJson TSys List Option

/-! ## The statement -/

/-- The lines of one file. -/
def linesIn (files : Nat → List UInt8) (k : Nat) : List Line :=
  (lineEnds 0 (files k)).map (Line.mk k)

/-- No line is lost or counted twice, the counters say how many of which outcome there
were, and a queued event is pending or was accepted. -/
structure LosesNothing (w : World) : Prop where
  initial : w.counted.map Counted.line <+: w.written
  once : (w.counted.map Counted.line).Nodup
  /-- no file is passed over -/
  passed : ∀ c, w.db.cursor = some c → ∀ l ∈ w.written, l.inode < c.inode →
    l ∈ w.counted.map Counted.line
  queued : w.db.counters.queued = (w.counted.filterMap (fun c => c.outcome.event?)).length
  ignored : w.db.counters.ignored = w.counted.countP (fun c => c.outcome = .ignored)
  invalid : w.db.counters.invalid = w.counted.countP (fun c => c.outcome = .invalid)
  events : w.counted.filterMap (fun c => c.outcome.event?) = w.accepted ++ w.db.pending

/-- The file at the path has a complete first line that is not too long. -/
def HasFirstLine (content : List UInt8) : Prop :=
  (readline (maxLine + 1) content).getLast? = some 10 ∧
    (readline (maxLine + 1) content).length ≤ maxLine

/-- Where a read step turns to the file at the path, no file it passes has a complete
line; and the engine completes no line in a file behind the cursor. -/
def Keeps (w : World) : Action → Prop
  | .read true => ∀ current, w.path = some current →
      w.db.pending.length < maxPending →
      (w.db.cursor = none → HasFirstLine (w.files current) →
        ∀ k, k < current → 10 ∉ w.files k) ∧
      (∀ c, w.db.cursor = some c → c.inode ≠ current →
        (w.files c.inode).drop c.offset = [] →
        ∀ k, c.inode < k → k < current → 10 ∉ w.files k)
  | .append bytes => ∀ c k, w.db.cursor = some c → w.writer = some k → k < c.inode →
      10 ∉ bytes
  | _ => True

/-! ## Ends of lines -/

theorem lineEnds_append (start : Nat) (xs ys : List UInt8) :
    lineEnds start (xs ++ ys) = lineEnds start xs ++ lineEnds (start + xs.length) ys := by
  induction xs generalizing start with
  | nil => rfl
  | cons b xs ih =>
    rw [cons_append, lineEnds, lineEnds, ih, length_cons]
    have hstart : start + 1 + xs.length = start + (xs.length + 1) := by omega
    rw [hstart]
    split <;> rfl

variable {xs : List UInt8} {k current : Nat} {files : Nat → List UInt8} {w : World} {py : Python}
  {start n offset : Nat} {bytes : List UInt8} {source : PyStr}

theorem lineEnds_eq_nil (h : 10 ∉ xs) : lineEnds start xs = [] := by
  induction xs generalizing start with
  | nil => rfl
  | cons b xs ih =>
    rw [mem_cons, not_or] at h
    rw [lineEnds, if_neg (fun heq => h.1 heq.symm), ih h.2]

theorem lt_of_mem_lineEnds (h : n ∈ lineEnds start xs) : start < n := by
  induction xs generalizing start with
  | nil => cases h
  | cons b xs ih =>
    rw [lineEnds] at h
    split at h
    · rcases mem_cons.1 h with rfl | h
      · omega
      · have := ih h
        omega
    · have := ih h
      omega

theorem nodup_lineEnds (start : Nat) (xs : List UInt8) : (lineEnds start xs).Nodup := by
  induction xs generalizing start with
  | nil => exact nodup_nil
  | cons b xs ih =>
    rw [lineEnds]
    split
    · refine nodup_cons.2 ⟨fun hmem => ?_, ih _⟩
      exact Nat.lt_irrefl _ (lt_of_mem_lineEnds hmem)
    · exact ih _

theorem prefix_takeLine (xs : List UInt8) : takeLine xs <+: xs := by
  induction xs with
  | nil => exact prefix_rfl
  | cons b xs ih =>
    rw [takeLine]
    split
    · exact ⟨xs, rfl⟩
    · exact cons_prefix_cons.2 ⟨rfl, ih⟩

theorem prefix_readline (limit : Nat) (xs : List UInt8) : readline limit xs <+: xs :=
  (prefix_takeLine _).trans (List.take_prefix limit xs)

/-- A line that is complete ends one line. -/
theorem lineEnds_takeLine (h : (takeLine xs).getLast? = some 10) :
    lineEnds start (takeLine xs) = [start + (takeLine xs).length] := by
  induction xs generalizing start with
  | nil => cases h
  | cons b xs ih =>
    rw [takeLine] at h ⊢
    split
    · rename_i hb
      rw [lineEnds, if_pos hb]
      rfl
    · rename_i hb
      rw [if_neg hb] at h
      have htail : (takeLine xs).getLast? = some 10 := by
        cases hrest : takeLine xs with
        | nil =>
          rw [hrest] at h
          exact absurd (some.inj h) hb
        | cons c cs =>
          rw [hrest] at h
          exact h
      rw [lineEnds, if_neg hb, ih htail, length_cons]
      have hlen : start + 1 + (takeLine xs).length = start + ((takeLine xs).length + 1) := by
        omega
      rw [hlen]

/-! ## Lines of several files -/

/-- Where only the files up to `k` have lines, those are all. -/
theorem flatMap_range_of_nil {f : Nat → List Line} (hk : k < n) (h : ∀ j, k < j → f j = []) :
    (List.range n).flatMap f = (List.range k).flatMap f ++ f k := by
  induction n with
  | zero => omega
  | succ n ih =>
    rw [range_succ, flatMap_append, flatMap_singleton]
    rcases Nat.lt_or_eq_of_le (Nat.lt_succ_iff.1 hk) with hlt | rfl
    · rw [ih hlt, h n hlt, append_nil]
    · rfl

theorem flatMap_range_congr {f g : Nat → List Line} (h : ∀ j, j < n → f j = g j) :
    (List.range n).flatMap f = (List.range n).flatMap g := by
  induction n with
  | zero => rfl
  | succ n ih =>
    rw [range_succ, flatMap_append, flatMap_append,
      ih (fun j hj => h j (Nat.lt_succ_of_lt hj)), flatMap_singleton,
      flatMap_singleton, h n (Nat.lt_succ_self n)]

theorem prefix_flatMap_range (f : Nat → List Line) (h : k ≤ n) :
    (List.range k).flatMap f <+: (List.range n).flatMap f := by
  induction n with
  | zero =>
    obtain rfl := Nat.le_zero.1 h
    exact prefix_rfl
  | succ n ih =>
    rcases Nat.lt_or_eq_of_le h with hlt | rfl
    · rw [range_succ, flatMap_append]
      exact (ih (Nat.lt_succ_iff.1 hlt)).trans (prefix_append _ _)
    · exact prefix_rfl

theorem linesIn_update_of_ne {j : Nat} (h : j ≠ k) :
    linesIn (Function.update files k bytes) j = linesIn files j := by
  rw [linesIn, Function.update_of_ne h, linesIn]

theorem linesIn_append :
    linesIn (Function.update files k (files k ++ bytes)) k =
      linesIn files k ++ (lineEnds (files k).length bytes).map (Line.mk k) := by
  rw [linesIn, Function.update_self, lineEnds_append, map_append, Nat.zero_add]
  rfl

/-- The lines before a place. -/
def linesBefore (files : Nat → List UInt8) (k offset : Nat) : List Line :=
  (List.range k).flatMap (linesIn files) ++
    (lineEnds 0 ((files k).take offset)).map (Line.mk k)

theorem prefix_linesBefore (offset : Nat) (h : k < n) :
    linesBefore files k offset <+: (List.range n).flatMap (linesIn files) := by
  refine List.IsPrefix.trans ?_ (prefix_flatMap_range (linesIn files) h)
  rw [range_succ, flatMap_append, flatMap_singleton, linesBefore]
  refine (prefix_append_right_inj _).2 ?_
  refine List.IsPrefix.map (Line.mk k) ?_
  have hsplit := lineEnds_append 0 ((files k).take offset) ((files k).drop offset)
  rw [take_append_drop] at hsplit
  rw [hsplit]
  exact prefix_append _ _

theorem inode_of_mem_linesIn {l : Line} (h : l ∈ linesIn files k) : l.inode = k := by
  obtain ⟨_, _, rfl⟩ := List.mem_map.1 h
  rfl

theorem nodup_lines (files : Nat → List UInt8) (n : Nat) :
    ((List.range n).flatMap (linesIn files)).Nodup := by
  refine List.nodup_flatMap.2 ⟨fun k _ => ?_, ?_⟩
  · exact (nodup_lineEnds 0 (files k)).map (fun _ _ h => (Line.mk.inj h).2)
  · refine List.Pairwise.imp ?_ (nodup_range (n := n))
    intro j k hne l hj hk
    exact hne ((inode_of_mem_linesIn hj).symm.trans (inode_of_mem_linesIn hk))

/-! ## What holds in every state -/

/-- The books, and how the files lie. -/
structure Base (w : World) : Prop where
  path : ∀ p, w.path = some p → p + 1 = w.created
  writer : ∀ k, w.writer = some k → k < w.created ∧ ∀ j, k < j → w.files j = []
  unopened : w.writer = none → ∀ j, w.files j = []
  written : w.written = (List.range w.created).flatMap (linesIn w.files)
  queued : w.db.counters.queued = (w.counted.filterMap (fun c => c.outcome.event?)).length
  ignored : w.db.counters.ignored = w.counted.countP (fun c => c.outcome = .ignored)
  invalid : w.db.counters.invalid = w.counted.countP (fun c => c.outcome = .invalid)
  events : w.counted.filterMap (fun c => c.outcome.event?) = w.accepted ++ w.db.pending

theorem Base.files_eq_nil (h : Base w) {j : Nat} (hj : w.created ≤ j) : w.files j = [] := by
  cases hwriter : w.writer with
  | none => exact h.unopened hwriter j
  | some k =>
    have hk := h.writer k hwriter
    exact hk.2 j (by omega)

theorem Base.create (h : Base w) : Base (createFile w) where
  path := by
    intro p hp
    cases hp
    rfl
  writer := fun k hk => ⟨Nat.lt_succ_of_lt (h.writer k hk).1, (h.writer k hk).2⟩
  unopened := h.unopened
  written := by
    show w.written = (List.range (w.created + 1)).flatMap (linesIn w.files)
    rw [range_succ, flatMap_append, flatMap_singleton, linesIn,
      h.files_eq_nil (Nat.le_refl _), ← h.written]
    exact (append_nil _).symm
  queued := h.queued
  ignored := h.ignored
  invalid := h.invalid
  events := h.events

theorem Base.reopen (h : Base w) {p : Nat} (hp : w.path = some p) :
    Base { w with writer := some p } where
  path := h.path
  writer := by
    intro k hk
    cases hk
    have hcreated := h.path p hp
    refine ⟨?_, fun j hj => h.files_eq_nil (by omega)⟩
    show p < w.created
    omega
  unopened := by
    intro hnone
    cases hnone
  written := h.written
  queued := h.queued
  ignored := h.ignored
  invalid := h.invalid
  events := h.events

theorem Base.append (h : Base w) (hk : w.writer = some k) (bytes : List UInt8) :
    Base (appendTo w k bytes) where
  path := h.path
  writer := by
    intro k' hk'
    have hsame : k = k' := some.inj (hk.symm.trans hk')
    subst hsame
    refine ⟨(h.writer k hk).1, fun j hj => ?_⟩
    show Function.update w.files k _ j = []
    rw [Function.update_of_ne (by omega), (h.writer k hk).2 j hj]
  unopened := by
    intro hnone
    rw [show w.writer = none from hnone] at hk
    cases hk
  written := by
    obtain ⟨hlt, hempty⟩ := h.writer k hk
    have hlater : ∀ j, k < j → linesIn w.files j = [] := by
      intro j hj
      rw [linesIn, hempty j hj]
      rfl
    show w.written ++ _ = (List.range w.created).flatMap
      (linesIn (Function.update w.files k (w.files k ++ bytes)))
    have hbefore : (List.range k).flatMap
        (linesIn (Function.update w.files k (w.files k ++ bytes))) =
          (List.range k).flatMap (linesIn w.files) :=
      flatMap_range_congr (fun j hj => linesIn_update_of_ne (Nat.ne_of_lt hj))
    rw [h.written, flatMap_range_of_nil hlt hlater, flatMap_range_of_nil hlt,
      linesIn_append, hbefore, append_assoc]
    · intro j hj
      rw [linesIn_update_of_ne (by omega), hlater j hj]
  queued := h.queued
  ignored := h.ignored
  invalid := h.invalid
  events := h.events

theorem Base.count (h : Base w) (cursor : Cursor) (c : Counted) :
    Base { w with
      db := (Read.counted cursor c.outcome).commit w.db, counted := w.counted ++ [c] } where
  path := h.path
  writer := h.writer
  unopened := h.unopened
  written := h.written
  queued := by
    have hqueued := h.queued
    rw [filterMap_append, length_append, ← hqueued]
    obtain ⟨line, outcome⟩ := c
    cases outcome <;> rfl
  ignored := by
    have hignored := h.ignored
    rw [countP_append, ← hignored]
    obtain ⟨line, outcome⟩ := c
    cases outcome <;> rfl
  invalid := by
    have hinvalid := h.invalid
    rw [countP_append, ← hinvalid]
    obtain ⟨line, outcome⟩ := c
    cases outcome <;> rfl
  events := by
    have hevents := h.events
    rw [filterMap_append, hevents, append_assoc]
    obtain ⟨line, outcome⟩ := c
    cases outcome <;> rfl

theorem Base.send (h : Base w) (answer : Answer) : Base (doSend w answer) := by
  have hevents := h.events
  have hcounters : (sendStep w.db answer).counters.queued = w.db.counters.queued ∧
      (sendStep w.db answer).counters.ignored = w.db.counters.ignored ∧
      (sendStep w.db answer).counters.invalid = w.db.counters.invalid := by
    unfold sendStep
    dsimp only
    split
    · exact ⟨rfl, rfl, rfl⟩
    · exact ⟨rfl, rfl, rfl⟩
  have hpending : (if allAccepted (sendRows w.db) answer then sendRows w.db else []) ++
      (sendStep w.db answer).pending = w.db.pending := by
    by_cases hall : allAccepted (sendRows w.db) answer = true
    · rw [if_pos hall]
      by_cases hrows : sendRows w.db = []
      · simp only [sendStep, hrows, true_or, if_true, nil_append]
      · have hpre : sendRows w.db <+: w.db.pending := take_prefix ..
        simp only [sendStep, hrows, hall, false_or, Bool.true_eq_false, if_false]
        exact (prefix_iff_eq_append.1 hpre)
    · rw [if_neg hall, nil_append]
      simp only [sendStep, Bool.eq_false_iff.2 hall, or_true, if_true]
  exact
    { path := h.path
      writer := h.writer
      unopened := h.unopened
      written := h.written
      queued := hcounters.1.trans h.queued
      ignored := hcounters.2.1.trans h.ignored
      invalid := hcounters.2.2.trans h.invalid
      events := by
        show _ = (w.accepted ++ _) ++ (sendStep w.db answer).pending
        rw [append_assoc, hpending]
        exact hevents }

/-! ## What a read step does -/

theorem takeLine_eq_nil (h : takeLine xs = []) : xs = [] := by
  cases xs with
  | nil => rfl
  | cons b xs =>
    rw [takeLine] at h
    split at h <;> cases h

theorem readline_eq_nil {limit : Nat} (h : readline (limit + 1) xs = []) : xs = [] := by
  have htake := takeLine_eq_nil h
  rw [take_eq_nil_iff] at htake
  rcases htake with hzero | hnil
  · cases hzero
  · exact hnil

theorem openAt_some {db : Db} {selected : Nat}
    (h : openAt py db files current = some (selected, offset)) :
    (db.cursor = none ∧ selected = current ∧ offset = 0) ∨
      ∃ c, db.cursor = some c ∧ selected = c.inode ∧ offset = c.offset ∧
        c.offset ≤ (files c.inode).length := by
  unfold openAt at h
  split at h
  · rename_i hnone
    cases h
    exact .inl ⟨hnone, rfl, rfl⟩
  · rename_i c hc
    split at h
    · cases h
    · rename_i hfits
      cases h
      rw [not_or] at hfits
      exact .inr ⟨c, hc, rfl, rfl, Nat.not_lt.1 hfits.1⟩

/-- The steps that do something, and what they rest on. -/
inductive ReadCase (py : Python) (db : Db) (files : Nat → List UInt8) (current : Nat) :
    Read → Prop
  | raised : ReadCase py db files current .raised
  | idle : ReadCase py db files current .idle
  | turned (c : Cursor) : db.cursor = some c → c.inode ≠ current →
      c.offset ≤ (files c.inode).length → (files c.inode).drop c.offset = [] →
      db.pending.length < maxPending →
      ReadCase py db files current (.turned ⟨current, 0, hexdigest (py.sha256 [])⟩)
  | counted (selected offset : Nat) (raw : List UInt8) (outcome : Outcome) :
      openAt py db files current = some (selected, offset) →
      raw = readline (maxLine + 1) ((files selected).drop offset) →
      raw.getLast? = some 10 → raw.length ≤ maxLine → db.pending.length < maxPending →
      ReadCase py db files current
        (.counted ⟨selected, offset + raw.length,
          anchor py (files selected) (offset + raw.length)⟩ outcome)

theorem readStep_cases {db : Db} :
    ReadCase py db files current (readStep py source db files current) := by
  unfold readStep
  dsimp only
  split
  · exact .raised
  · rename_i selected offset hopen
    split
    · exact .idle
    · rename_i hroom
      split
      · exact .raised
      · rename_i hshort
        split
        · rename_i hraw
          have hdrained := readline_eq_nil hraw
          split
          · rename_i hother
            rcases openAt_some hopen with ⟨_, rfl, _⟩ | ⟨c, hc, rfl, rfl, hfits⟩
            · exact absurd rfl hother
            · exact .turned c hc hother hfits hdrained (Nat.not_le.1 hroom)
          · exact .idle
        · split
          · split
            · exact .raised
            · exact .idle
          · rename_i hcomplete
            split
            · exact .raised
            · exact .counted selected offset _ _ hopen rfl (not_not.1 hcomplete)
                (Nat.not_lt.1 hshort) (Nat.not_le.1 hroom)

/-! ## What holds as long as nothing was raised -/

/-- What was counted is what is before the cursor. -/
inductive Covered (w : World) : Prop
  | fresh : w.db.cursor = none → w.counted = [] → Covered w
  | upTo (c : Cursor) : w.db.cursor = some c → c.inode < w.created →
      c.offset ≤ (w.files c.inode).length →
      w.counted.map Counted.line = linesBefore w.files c.inode c.offset → Covered w

/-- A drained file has no line behind its end. -/
theorem linesBefore_drained (hdrained : (files k).drop offset = []) (hlt : k < current)
    (hpassed : ∀ j, k < j → j < current → 10 ∉ files j) :
    linesBefore files current 0 = linesBefore files k offset := by
  have hall : (files k).take offset = files k := by
    rw [take_of_length_le (drop_eq_nil_iff.1 hdrained)]
  have hempty : ∀ j, k < j → j < current → linesIn files j = [] := by
    intro j hj hjc
    rw [linesIn, lineEnds_eq_nil (hpassed j hj hjc)]
    rfl
  -- beyond `current` the lines do not matter here, so they may be taken for none
  have hcut : (List.range current).flatMap (linesIn files) =
      (List.range current).flatMap (fun j => if j < current then linesIn files j else []) :=
    flatMap_range_congr (fun j hj => (if_pos hj).symm)
  have hcut' : (List.range k).flatMap (linesIn files) =
      (List.range k).flatMap (fun j => if j < current then linesIn files j else []) :=
    flatMap_range_congr (fun j hj => (if_pos (hj.trans hlt)).symm)
  rw [linesBefore, linesBefore, hall, hcut, hcut', flatMap_range_of_nil hlt]
  · rw [if_pos hlt, linesIn]
    exact append_nil _
  · intro j hj
    split
    · rename_i hjc
      exact hempty j hj hjc
    · rfl

theorem linesBefore_start (hpassed : ∀ j, j < current → 10 ∉ files j) :
    linesBefore files current 0 = [] := by
  have hnil : (List.range current).flatMap (linesIn files) =
      (List.range current).flatMap (fun _ => []) := by
    refine flatMap_range_congr (fun j hj => ?_)
    rw [linesIn, lineEnds_eq_nil (hpassed j hj)]
    rfl
  rw [linesBefore, hnil]
  simp [lineEnds]

/-- Over one complete line. -/
theorem linesBefore_line {limit : Nat} (hfits : offset ≤ (files k).length)
    (hline : (readline limit ((files k).drop offset)).getLast? = some 10) :
    linesBefore files k (offset + (readline limit ((files k).drop offset)).length) =
        linesBefore files k offset ++
          [⟨k, offset + (readline limit ((files k).drop offset)).length⟩] ∧
      offset + (readline limit ((files k).drop offset)).length ≤ (files k).length := by
  have hpre := prefix_readline limit ((files k).drop offset)
  have hlen := hpre.length_le
  rw [length_drop] at hlen
  refine ⟨?_, by omega⟩
  have hends : lineEnds offset (readline limit ((files k).drop offset)) =
      [offset + (readline limit ((files k).drop offset)).length] := lineEnds_takeLine hline
  have htake : (files k).take (offset + (readline limit ((files k).drop offset)).length) =
      (files k).take offset ++ readline limit ((files k).drop offset) := by
    rw [take_add, ← prefix_iff_eq_take.1 hpre]
  have hstart : 0 + ((files k).take offset).length = offset := by
    rw [length_take]
    omega
  rw [linesBefore, linesBefore, htake, lineEnds_append, hstart, map_append,
    ← append_assoc]
  exact congrArg (fun ends => _ ++ ends.map (Line.mk k)) hends

theorem Covered.create (h : Covered w) : Covered (createFile w) := by
  cases h with
  | fresh hcursor hcounted => exact .fresh hcursor hcounted
  | upTo c hc hlt hfits hlines => exact .upTo c hc (Nat.lt_succ_of_lt hlt) hfits hlines

/-- Bytes behind the cursor complete no line, and those before it are not read yet. -/
theorem Covered.append (h : Covered w)
    (hbehind : ∀ c, w.db.cursor = some c → k < c.inode → 10 ∉ bytes) :
    Covered (appendTo w k bytes) := by
  cases h with
  | fresh hcursor hcounted => exact .fresh hcursor hcounted
  | upTo c hc hlt hfits hlines =>
    have hlen : (w.files c.inode).length ≤
        (Function.update w.files k (w.files k ++ bytes) c.inode).length := by
      by_cases hk : c.inode = k
      · rw [hk, Function.update_self, length_append]
        exact Nat.le_add_right _ _
      · rw [Function.update_of_ne hk]
    have htake : (Function.update w.files k (w.files k ++ bytes) c.inode).take c.offset =
        (w.files c.inode).take c.offset := by
      by_cases hk : c.inode = k
      · rw [hk, Function.update_self, take_append_of_le_length (hk ▸ hfits)]
      · rw [Function.update_of_ne hk]
    have hbefore : ∀ j, j < c.inode →
        linesIn w.files j = linesIn (Function.update w.files k (w.files k ++ bytes)) j := by
      intro j hj
      by_cases hk : j = k
      · subst hk
        rw [linesIn_append, lineEnds_eq_nil (hbehind c hc hj)]
        exact (append_nil _).symm
      · rw [linesIn_update_of_ne hk]
    refine .upTo c hc hlt (hfits.trans hlen) ?_
    show w.counted.map Counted.line =
      linesBefore (Function.update w.files k (w.files k ++ bytes)) c.inode c.offset
    rw [hlines, linesBefore, linesBefore, htake, flatMap_range_congr hbefore]

structure Consistent (w : World) : Prop where
  base : Base w
  covered : w.raised = false → Covered w

theorem consistent_initial (h : Initial w) : Consistent w where
  base :=
    { path := fun p hp => by
        rw [h.path] at hp
        cases hp
      writer := fun k hk => by
        rw [h.writer] at hk
        cases hk
      unopened := fun _ => h.files
      written := by
        rw [h.written, h.created]
        rfl
      queued := by
        rw [h.db, h.counted]
        rfl
      ignored := by
        rw [h.db, h.counted]
        rfl
      invalid := by
        rw [h.db, h.counted]
        rfl
      events := by
        rw [h.db, h.counted, h.accepted]
        rfl }
  covered _ := .fresh (by rw [h.db]; rfl) h.counted

section

variable (h : Consistent w)
include h

theorem Consistent.raise :
    Consistent { w with raised := true } where
  base := ⟨h.base.path, h.base.writer, h.base.unopened, h.base.written, h.base.queued,
    h.base.ignored, h.base.invalid, h.base.events⟩
  covered hno := by cases hno

theorem Consistent.commitRead (hkeeps : Keeps w (.read true)) (hpath : w.path = some current)
    {r : Read} (hcase : ReadCase py w.db w.files current r) : Consistent (commitRead w r) := by
  have hcreated := h.base.path current hpath
  cases hcase with
  | raised => exact h.raise
  | idle =>
    simp only [EveAdapter.commitRead, Read.commit, Read.counted?, toList_none,
      append_nil]
    exact h
  | turned c hc hother hfits hdrained hroom =>
    refine ⟨?_, fun hno => ?_⟩
    · have hbase := h.base
      simp only [EveAdapter.commitRead, Read.commit, Read.counted?, toList_none,
        append_nil]
      exact ⟨hbase.path, hbase.writer, hbase.unopened, hbase.written, hbase.queued,
        hbase.ignored, hbase.invalid, hbase.events⟩
    · cases h.covered hno with
      | fresh hcursor _ =>
        rw [hcursor] at hc
        cases hc
      | upTo c' hc' hlt _ hlines =>
        have hsame : c = c' := some.inj (hc.symm.trans hc')
        subst hsame
        have hle : c.inode < current := by omega
        have hpassed := (hkeeps current hpath hroom).2 c hc hother hdrained
        refine .upTo ⟨current, 0, _⟩ rfl ?_ (Nat.zero_le _) ?_
        · show current < w.created
          omega
        · show (w.counted ++ []).map Counted.line = linesBefore w.files current 0
          rw [append_nil, hlines, linesBefore_drained hdrained hle hpassed]
  | counted selected offset raw outcome hopen hraw hline hshort hroom =>
    refine ⟨h.base.count _ ⟨⟨selected, offset + raw.length⟩, outcome⟩, fun hno => ?_⟩
    subst hraw
    rcases openAt_some hopen with ⟨hcursor, rfl, rfl⟩ | ⟨c, hc, rfl, rfl, hfits⟩
    · have hpassed := (hkeeps selected hpath hroom).1 hcursor ⟨hline, hshort⟩
      obtain ⟨hlines, hend⟩ := linesBefore_line (Nat.zero_le _) hline
      have hnone : w.counted = [] := by
        cases h.covered hno with
        | fresh _ hcounted => exact hcounted
        | upTo c hc =>
          rw [hcursor] at hc
          cases hc
      refine .upTo ⟨selected, _, _⟩ rfl ?_ hend ?_
      · show selected < w.created
        omega
      · show (w.counted ++ [_]).map Counted.line = linesBefore w.files selected _
        rw [hlines, linesBefore_start hpassed, hnone]
        rfl
    · obtain ⟨hlines, hend⟩ := linesBefore_line hfits hline
      cases h.covered hno with
      | fresh hcursor _ =>
        rw [hcursor] at hc
        cases hc
      | upTo c' hc' hlt _ hcounted =>
        have hsame : c = c' := some.inj (hc.symm.trans hc')
        subst hsame
        refine .upTo ⟨c.inode, _, _⟩ rfl hlt hend ?_
        show (w.counted ++ [_]).map Counted.line = linesBefore w.files c.inode _
        rw [hlines, map_append, hcounted]
        rfl

theorem Consistent.read (hkeeps : Keeps w (.read true)) : Consistent (doRead py source w) := by
  cases hpath : w.path with
  | none =>
    have hraised : readStep py source w.db w.files w.path = .raised := by
      rw [hpath]
      rfl
    rw [doRead, hraised]
    exact h.raise
  | some current =>
    have hcase : ReadCase py w.db w.files current
        (readStep py source w.db w.files (some current)) := readStep_cases
    rw [← hpath] at hcase
    exact h.commitRead hkeeps hpath hcase

theorem Consistent.send (answer : Answer) : Consistent (doSend w answer) := by
  refine ⟨h.base.send answer, fun hno => ?_⟩
  have hcursor : (sendStep w.db answer).cursor = w.db.cursor := by
    unfold sendStep
    dsimp only
    split <;> rfl
  cases h.covered hno with
  | fresh hnone hcounted => exact .fresh (hcursor.trans hnone) hcounted
  | upTo c hc hlt hfits hlines => exact .upTo c (hcursor.trans hc) hlt hfits hlines

theorem Consistent.create : Consistent (createFile w) :=
  ⟨h.base.create, fun hno => (h.covered hno).create⟩

theorem Consistent.reopen {p : Nat} (hp : w.path = some p) :
    Consistent { w with writer := some p } := by
  refine ⟨h.base.reopen hp, fun hno => ?_⟩
  cases h.covered hno with
  | fresh hnone hcounted => exact .fresh hnone hcounted
  | upTo c hc hlt hfits hlines => exact .upTo c hc hlt hfits hlines

theorem Consistent.step {w' : World} {a : Action} (hkeeps : Keeps w a)
    (hstep : exec py source w a = some w') : Consistent w' := by
  cases a with
  | rename =>
    simp only [exec] at hstep
    split at hstep
    · cases hstep
      refine ⟨⟨(fun p hp => by cases hp), h.base.writer, h.base.unopened, h.base.written,
        h.base.queued, h.base.ignored, h.base.invalid, h.base.events⟩, fun hno => ?_⟩
      cases h.covered hno with
      | fresh hnone hcounted => exact .fresh hnone hcounted
      | upTo c hc hlt hfits hlines => exact .upTo c hc hlt hfits hlines
    · cases hstep
  | create =>
    simp only [exec] at hstep
    split at hstep
    · cases hstep
      exact h.create
    · cases hstep
  | reopen =>
    simp only [exec] at hstep
    split at hstep
    · rename_i p hp
      cases hstep
      exact h.reopen hp
    · cases hstep
      exact h.create.reopen rfl
  | append bytes =>
    obtain ⟨k, hk, rfl⟩ := map_eq_some_iff.1 hstep
    exact ⟨h.base.append hk bytes,
      fun hno => (h.covered hno).append (fun c hc hlt => hkeeps c k hc hk hlt)⟩
  | read committed =>
    simp only [exec, Option.some.injEq] at hstep
    subst hstep
    cases committed with
    | true => exact h.read hkeeps
    | false => exact h
  | send answer committed =>
    simp only [exec, Option.some.injEq] at hstep
    subst hstep
    cases committed with
    | true => exact h.send answer
    | false => exact h

theorem Consistent.losesNothing (hno : w.raised = false) : LosesNothing w := by
  have hnodup : w.written.Nodup := by
    rw [h.base.written]
    exact nodup_lines w.files w.created
  have hinitial : w.counted.map Counted.line <+: w.written := by
    rw [h.base.written]
    cases h.covered hno with
    | fresh _ hcounted =>
      rw [hcounted]
      exact nil_prefix
    | upTo c hc hlt _ hlines =>
      rw [hlines]
      exact prefix_linesBefore c.offset hlt
  exact
    { initial := hinitial
      once := hnodup.sublist hinitial.sublist
      passed := by
        intro c hc l hl hlt
        cases h.covered hno with
        | fresh hnone _ =>
          rw [hnone] at hc
          cases hc
        | upTo c' hc' _ _ hlines =>
          have hsame : c = c' := some.inj (hc.symm.trans hc')
          subst hsame
          rw [h.base.written] at hl
          obtain ⟨k, _, hk⟩ := mem_flatMap.1 hl
          rw [inode_of_mem_linesIn hk] at hlt
          rw [hlines, linesBefore]
          exact mem_append_left _ (mem_flatMap.2 ⟨k, mem_range.2 hlt, hk⟩)
      queued := h.base.queued
      ignored := h.base.ignored
      invalid := h.base.invalid
      events := h.base.events }

end

/-- **The reader.** In every run in which a read step that turns to the file at the path
passes no file with a complete line, and no line is completed behind the cursor: as long as
no step has raised, nothing is lost. -/
theorem loses_nothing_along (py : Python) (source : PyStr) :
    ((system py source).restrict Keeps).Invariant
      (fun w => w.raised = false → LosesNothing w) := by
  have hind : ((system py source).restrict Keeps).Inductive Consistent :=
    { init := fun _ h => consistent_initial h
      step := fun _ _ _ hw hstep => hw.step hstep.1 hstep.2 }
  exact fun w hw hno => (hind.invariant w hw).losesNothing hno

/-! ## A rotation between two steps -/

instance (content : List UInt8) : Decidable (HasFirstLine content) :=
  inferInstanceAs (Decidable (_ ∧ _))

instance (w : World) : DecidablePred (Keeps w)
  | .read true =>
    decidable_of_iff (∀ current ∈ w.path, w.db.pending.length < maxPending →
      (w.db.cursor = none → HasFirstLine (w.files current) →
        ∀ k, k < current → 10 ∉ w.files k) ∧
      (∀ c ∈ w.db.cursor, c.inode ≠ current → (w.files c.inode).drop c.offset = [] →
        ∀ k, k < current → c.inode < k → 10 ∉ w.files k))
      (forall₃_congr fun _ _ _ => and_congr_right' (forall₄_congr fun _ _ _ _ =>
        forall_congr' fun _ => forall_comm))
  | .append bytes =>
    decidable_of_iff (∀ c ∈ w.db.cursor, ∀ k ∈ w.writer, k < c.inode → 10 ∉ bytes)
      (forall_congr' fun _ => forall_comm)
  | .rename | .create | .reopen | .read false | .send .. => .isTrue trivial

def sampleName : PyStr := .ofString "suricata:lab"

def freshWorld : World :=
  ⟨fun _ => [], 0, none, none, Db.empty, [], [], [], false⟩

theorem initial_freshWorld : Initial freshWorld :=
  ⟨fun _ => rfl, rfl, rfl, rfl, rfl, rfl, rfl, rfl, rfl⟩

def alertRow : Json :=
  Json.ofFields [("event_type", .string "alert"),
    ("timestamp", .string "2026-07-12T00:00:00+00:00"), ("src_ip", .string "203.0.113.7"),
    ("dest_ip", .string "198.51.100.2"), ("proto", .string "TCP"),
    ("alert", Json.ofFields [("signature_id", .number (.int 7)), ("severity", .number (.int 2))])]

def alertLine : List UInt8 :=
  ("\x7b\"event_type\":\"alert\",\"timestamp\":\"2026-07-12T00:00:00+00:00\"," ++
    "\"src_ip\":\"203.0.113.7\",\"dest_ip\":\"198.51.100.2\",\"proto\":\"TCP\"," ++
    "\"alert\":\x7b\"signature_id\":7,\"severity\":2\x7d\x7d\n").toUTF8.data.toList

/-- What Python computes of the lines of this section: an alert, `{}` and two that are not
JSON. The digests are of the anchors, and of the text the alert's key stands for. -/
def alertPython : Python where
  loads := fun bytes =>
    if bytes = alertLine then .ok alertRow
    else if bytes = [123, 125, 10] then .ok (.object [])
    else .error .invalid
  utcIsoformat := some
  sha256 := fun bytes =>
    if bytes = [] then 0xe3b0c44298fc1c149afbf4c8996fb92427ae41e4649b934ca495991b7852b855
    else if bytes = [67, 10, 67, 10] then
      0xa3e07aa36d3a6f8d1965b924a1755e59fd7a743c192028ac9cb6b55b84dbfebb
    else if bytes = alertLine.take 128 ++ alertLine.drop 37 then
      0xd4c5902f46706dbf18530d3631f25a148e3025b482c0c08e08e52ce156bc7505
    else if bytes = alertLine.take 128 ++ alertLine.drop 40 ++ [123, 125, 10] then
      0x1e3ef24f38e0e830b23de99429250178d980749fa45b2b0c033d4adf21a1ad35
    else 0x32d4e7be278bb4d00b234e032b3121da7b35dc316bbe7b43e5ba141cd884c4de

def sampleAccepted : Json :=
  Json.ofFields [("data", Json.ofFields [("results",
    .array [Json.ofFields [("status", .string "accepted")]])])]

/-- An alert is read and another line completed after the rotation; a step crashes, the drained
file is left for the new one, and the event is sent after a refusal. -/
def rotation : List Action :=
  [ .reopen, .append (alertLine ++ [123]), .read true, .rename, .append [125, 10]
  , .reopen, .append [67, 10, 67], .read false, .read true, .send .raised true, .read true
  , .read true, .send (.body sampleAccepted) true, .read true ]

theorem loses_nothing_along_rotation : ∃ w,
    ((system alertPython sampleName).restrict Keeps).Run freshWorld rotation w ∧
    w.raised = false ∧ w.written = [⟨0, 165⟩, ⟨0, 168⟩, ⟨1, 2⟩] ∧
    w.db.counters = ⟨1, 1, 1, 1⟩ ∧ LosesNothing w := by
  have hrun : (execAll
      (fun w a => if Keeps w a then exec alertPython sampleName w a else none)
      freshWorld rotation).map (fun w => (w.raised, w.written, w.db.counters)) =
        some (false, [⟨0, 165⟩, ⟨0, 168⟩, ⟨1, 2⟩], ⟨1, 1, 1, 1⟩) := by
    decide +kernel
  obtain ⟨w, hw, hstate⟩ := map_eq_some_iff.1 hrun
  simp only [Prod.mk.injEq] at hstate
  obtain ⟨hno, hwritten, hcounters⟩ := hstate
  have hsteps := run_restrict_of_execAll Initial (exec alertPython sampleName) hw
  exact ⟨w, hsteps, hno, hwritten, hcounters,
    loses_nothing_along _ _ w ⟨freshWorld, _, initial_freshWorld, hsteps⟩ hno⟩

/-! ## Two rotations between two steps -/

/-- What Python computes of the three lines below: none is JSON, and the digests are those
of the anchors. -/
def rotationPython : Python where
  loads := fun _ => .error .invalid
  utcIsoformat := fun _ => none
  sha256 := fun bytes =>
    if bytes = [65, 10, 65, 10] then
      0xf2c7d522ec2c8f6b74a46a6b60af0e857b7f20ccc216a8d073071e734841356c
    else if bytes = [67, 10, 67, 10] then
      0xa3e07aa36d3a6f8d1965b924a1755e59fd7a743c192028ac9cb6b55b84dbfebb
    else 0xe3b0c44298fc1c149afbf4c8996fb92427ae41e4649b934ca495991b7852b855

/-- One line is read; two more are written, with a rotation before each; then two steps. -/
def rotations : List Action :=
  [ .reopen, .append [65, 10], .read true
  , .rename, .reopen, .append [66, 10]
  , .rename, .reopen, .append [67, 10]
  , .read true, .read true ]

/-- The second line is passed over, and nothing raises. -/
theorem rotated_twice :
    ¬ (system rotationPython sampleName).Invariant
      (fun w => w.raised = false → LosesNothing w) := by
  intro h
  have hrun : (execAll (exec rotationPython sampleName) freshWorld rotations).map
      (fun w => (w.raised, w.counted.map Counted.line, w.written)) =
        some (false, [⟨0, 2⟩, ⟨2, 2⟩], [⟨0, 2⟩, ⟨1, 2⟩, ⟨2, 2⟩]) := by
    decide_cbv
  obtain ⟨w, hw, heq⟩ := map_eq_some_iff.1 hrun
  simp only [Prod.mk.injEq] at heq
  obtain ⟨hno, hcounted, hwritten⟩ := heq
  have hreach : (system rotationPython sampleName).Reachable w :=
    ⟨freshWorld, rotations, initial_freshWorld, run_of_execAll Initial _ hw⟩
  have hinitial := (h w hreach hno).initial
  rw [hcounted, hwritten] at hinitial
  exact absurd hinitial (by decide)

end Clawforge.EveAdapter
