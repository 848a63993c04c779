import Mathlib.Data.List.DropRight
import Clawforge.Firewall.Quarantine

/-!
# An isolation edits one option of a NIC

A NIC is a list of options between commas. The isolated form keeps every other
option and ends in `link_down=1`; the recogniser, the edit and the test before
a rollback agree on it. A rollback writes the recorded NIC only where the NIC
it has just read is the isolated form of it, and under the digest of that
reading, so a host that fences its writes by digest loses no other edit.
-/

namespace Clawforge.Text

open List

/-- Trimmed text starts with no white space. -/
theorem dropWhile_trim (cs : List Char) : (trim cs).dropWhile isWhitespace = trim cs := by
  have htrim : trim cs = (cs.dropWhile isWhitespace).rdropWhile isWhitespace := rfl
  cases h : trim cs with
  | nil => rfl
  | cons d ds =>
    have hpre : d :: ds <+: cs.dropWhile isWhitespace := by
      rw [← h, htrim]
      exact rdropWhile_prefix isWhitespace _
    obtain ⟨rest, hrest⟩ := hpre
    have hne : cs.dropWhile isWhitespace ≠ [] := by
      rw [← hrest]
      exact cons_ne_nil _ _
    have hd : isWhitespace d = false := by
      have hhead := head_dropWhile_not isWhitespace hne
      simpa only [← hrest, cons_append, head_cons] using hhead
    exact dropWhile_cons_of_neg (by simp [hd])

theorem trim_trim (cs : List Char) : trim (trim cs) = trim cs := by
  have htrim : trim cs = (cs.dropWhile isWhitespace).rdropWhile isWhitespace := rfl
  have hagain : trim (trim cs) = ((trim cs).dropWhile isWhitespace).rdropWhile isWhitespace := rfl
  rw [hagain, dropWhile_trim, htrim, rdropWhile_idempotent]

theorem mem_of_mem_trim {c : Char} {cs : List Char} (h : c ∈ trim cs) : c ∈ cs :=
  (dropWhile_sublist isWhitespace).mem
    ((List.rdropWhile_prefix isWhitespace (cs.dropWhile isWhitespace)).mem h)

/-- A piece does not hold the separator. -/
theorem not_mem_of_mem_splitOn {sep : Char} {cs piece : List Char} (h : piece ∈ cs.splitOn sep) :
    sep ∉ piece := by
  induction cs generalizing piece with
  | nil =>
    obtain rfl := mem_singleton.mp h
    exact not_mem_nil
  | cons c cs ih =>
    rw [splitOn_cons_eq_if_modifyHead] at h
    split at h
    · rcases mem_cons.mp h with rfl | h
      · exact not_mem_nil
      · exact ih h
    · next hc =>
      -- the character goes to the first of the pieces that follow
      obtain ⟨first, rest, hsplit⟩ := exists_cons_of_ne_nil (splitOn_ne_nil sep cs)
      rw [hsplit] at h ih
      rcases mem_cons.mp h with rfl | h
      · rw [mem_cons, not_or]
        exact ⟨fun heq => hc (beq_iff_eq.mpr heq.symm), ih mem_cons_self⟩
      · exact ih (mem_cons_of_mem _ h)

/-- A piece is trimmed, is not blank, and has no separator. -/
theorem of_mem_trimmedPieces {sep : Char} {cs piece : List Char}
    (h : piece ∈ trimmedPieces sep cs) : trim piece = piece ∧ piece ≠ [] ∧ sep ∉ piece := by
  unfold trimmedPieces at h
  obtain ⟨hmem, hne⟩ := mem_filter.mp h
  obtain ⟨raw, hraw, rfl⟩ := List.mem_map.mp hmem
  exact ⟨trim_trim raw, of_decide_eq_true hne,
    fun hsep => not_mem_of_mem_splitOn hraw (mem_of_mem_trim hsep)⟩

/-- Pieces that are joined again are the same pieces. -/
theorem trimmedPieces_intercalate {sep : Char} {pieces : List (List Char)}
    (h : ∀ piece ∈ pieces, trim piece = piece ∧ piece ≠ [] ∧ sep ∉ piece) :
    trimmedPieces sep (List.intercalate [sep] pieces) = pieces := by
  unfold trimmedPieces
  cases pieces with
  | nil => rfl
  | cons piece rest =>
    rw [splitOn_intercalate sep (fun piece hp => (h piece hp).2.2) (cons_ne_nil _ _)]
    have hmap : (piece :: rest).map trim = piece :: rest :=
      (map_congr_left fun p hp => (h p hp).1).trans (List.map_id _)
    rw [hmap, filter_eq_self]
    exact fun p hp => decide_eq_true (h p hp).2.1

theorem trimmedPieces_append (sep : Char) (before after : List Char) :
    trimmedPieces sep (before ++ sep :: after) =
      trimmedPieces sep before ++ trimmedPieces sep after := by
  unfold trimmedPieces
  rw [splitOn_append_cons_self, map_append, filter_append]

end Clawforge.Text

namespace Clawforge.Quarantine

open Clawforge.Text Clawforge.Firewall Kit List

/-! ## The options of a NIC -/

/-- The options between the commas, without the blanks around them. -/
def options (net0 : String) : List (List Char) := trimmedPieces ',' net0.toList

/-- `link_down=…` -/
def isLinkDown (option : List Char) : Bool := linkDownFlag.isPrefixOf option

def otherOptions (net0 : String) : List (List Char) :=
  (options net0).filter fun option => !isLinkDown option

theorem trimmedPieces_stripLinkDown (net0 : String) :
    trimmedPieces ',' (stripLinkDown net0) = otherOptions net0 :=
  trimmedPieces_intercalate fun _ hp => of_mem_trimmedPieces (mem_of_mem_filter hp)

/-- The isolated form has the other options, then `link_down=1`. -/
theorem options_quarantineNet0 (net0 : String) :
    options (quarantineNet0 net0) = otherOptions net0 ++ ["link_down=1".toList] := by
  have hflag : trimmedPieces ',' "link_down=1".toList = ["link_down=1".toList] := by
    decide_cbv
  unfold options
  rw [quarantineNet0, String.toList_ofList, ← hflag, ← trimmedPieces_stripLinkDown]
  exact trimmedPieces_append ',' (stripLinkDown net0) "link_down=1".toList

theorem not_isLinkDown_of_mem_otherOptions {net0 : String} {option : List Char}
    (h : option ∈ otherOptions net0) : isLinkDown option = false :=
  Bool.not_eq_true' .. ▸ (mem_filter.mp h).2

theorem otherOptions_quarantineNet0 (net0 : String) :
    otherOptions (quarantineNet0 net0) = otherOptions net0 := by
  have hflag : isLinkDown "link_down=1".toList = true := by decide_cbv
  conv_lhs => rw [otherOptions, options_quarantineNet0]
  rw [filter_append, filter_cons_of_neg (by rw [hflag]; exact Bool.false_ne_true),
    filter_nil, append_nil, filter_eq_self]
  exact fun option h => by rw [not_isLinkDown_of_mem_otherOptions h]; rfl

theorem linkDown_quarantineNet0 (net0 : String) :
    (options (quarantineNet0 net0)).filter isLinkDown = ["link_down=1".toList] := by
  have hflag : isLinkDown "link_down=1".toList = true := by decide_cbv
  have hothers : (otherOptions net0).filter isLinkDown = [] := by
    rw [filter_eq_nil_iff]
    intro option h
    rw [not_isLinkDown_of_mem_otherOptions h]
    exact Bool.false_ne_true
  rw [options_quarantineNet0, filter_append, hothers, filter_cons_of_pos hflag,
    filter_nil, nil_append]

theorem quarantineNet0_quarantineNet0 (net0 : String) :
    quarantineNet0 (quarantineNet0 net0) = quarantineNet0 net0 := by
  have hstrip : ∀ value, stripLinkDown value = List.intercalate [','] (otherOptions value) :=
    fun _ => rfl
  rw [quarantineNet0, hstrip, otherOptions_quarantineNet0, ← hstrip]
  rfl

/-- A NIC that is not isolated is not its own isolated form. -/
theorem ne_quarantineNet0 {original : String} (h : net0IsQuarantined original = false) :
    quarantineNet0 original ≠ original := by
  intro heq
  rw [← heq, net0IsQuarantined_quarantineNet0] at h
  cases h

theorem rollbackNeeded_iff {original : String} (h : net0IsQuarantined original = false)
    (current : String) :
    rollbackNeeded current original = .ok true ↔ current = quarantineNet0 original := by
  unfold rollbackNeeded
  constructor
  · intro hneeded
    split at hneeded
    · cases hneeded
    · split at hneeded
      · cases hneeded
      · next hsame => exact not_not.mp hsame
  · rintro rfl
    rw [if_neg (ne_quarantineNet0 h), if_neg (not_not.mpr rfl)]

/-! ## What a rollback overwrites -/

/-- What a rollback may call: it writes the recorded NIC, under the digest of the isolated form
that it has just read. -/
def MayRestore (node : String) (vmid : Nat) (original : String) (h : HostHistory) (c : HostCall) :
    Prop :=
  c.mutates = true → ∃ earlier nic, h = earlier ++ [⟨.readNet0 node vmid, .ok nic⟩] ∧
    nic.net0 = quarantineNet0 original ∧ c = .postConfig node vmid original nic.digest

theorem rollback_guided (node : String) (vmid : Nat) (original : String) (h : HostHistory) :
    HostGuided (MayRestore node vmid original) (fun _ _ => True) h
      (Proxmox.rollback (.proxmox node vmid) original) := by
  refine Prog.guided_lift_bind (fun p hp => ?_) (fun _ _ => trivial)
  obtain rfl := Proxmox.nodeVmid_ok hp
  dsimp only
  split
  · exact trivial
  refine ⟨(fun hmut => nomatch hmut), fun answer _ => ?_⟩
  cases answer with
  | error e => exact trivial
  | ok current =>
    refine Prog.guided_lift_bind (fun needed hneeded => ?_) (fun _ _ => trivial)
    split
    · exact trivial
    · next hneeds =>
      have hcurrent : current.net0 = quarantineNet0 original := by
        unfold rollbackNeeded at hneeded
        split at hneeded
        · obtain rfl := Except.ok.inj hneeded
          exact absurd rfl hneeds
        · split at hneeded
          · cases hneeded
          · next hsame => exact not_not.mp hsame
      refine Prog.guided_except_bind (fun _ _ => True) ?_ (fun t upid _ => ?_) (fun _ _ _ => trivial)
      · -- the write, and the wait for its task
        refine ⟨fun _ => ⟨h, current, rfl, hcurrent, rfl⟩, fun answer _ => ?_⟩
        cases answer with
        | error e => exact trivial
        | ok upid =>
          refine Prog.guided_lift_bind (fun _ _ => ?_) (fun _ _ => trivial)
          refine ⟨(fun hmut => nomatch hmut), fun answer _ => ?_⟩
          cases answer <;> exact trivial
      · refine ⟨(fun hmut => nomatch hmut), fun answer _ => ?_⟩
        cases answer with
        | error e => exact trivial
        | ok restored =>
          show HostGuided _ _ _ (if _ then _ else _)
          split <;> exact trivial

/-- Each call that changes the host comes right after the reading it relies on. -/
theorem rollback_writes {node : String} {vmid : Nat} {original : String} {h : HostHistory}
    {r : Except AdapterError Unit}
    (hexec : Prog.Exec (Proxmox.rollback (.proxmox node vmid) original) h r)
    {before after : HostHistory} {e : Prog.Event HostCall.Answer}
    (hsplit : h = before ++ e :: after) : MayRestore node vmid original before e.call := by
  have hmay := (rollback_guided node vmid original []).exec_may hexec
    (fun _ _ => trivial) hsplit
  rwa [Prog.advance_history, nil_append] at hmay

/-- A host that tells the truth about the NIC and fences its writes: the `i`-th call finds the
configuration `config i`, which is what a reading returns, and a write is accepted only under
its digest. -/
structure Fenced (node : String) (vmid : Nat) (config : Nat → NicState) (h : HostHistory) :
    Prop where
  reads : ∀ i nic, h[i]? = some ⟨.readNet0 node vmid, .ok nic⟩ → nic = config i
  writes : ∀ i net0 digest upid, h[i]? = some ⟨.postConfig node vmid net0 digest, .ok upid⟩ →
    (config i).digest = digest
  /-- a digest is one configuration's -/
  digests : ∀ i j, (config i).digest = (config j).digest → config i = config j

/-- Where the host fences its writes, a write that is accepted replaces the isolated form of the
recorded NIC, however the configuration has changed before. -/
theorem rollback_overwrites {node : String} {vmid : Nat} {original : String} {h : HostHistory}
    {r : Except AdapterError Unit} {config : Nat → NicState}
    (hexec : Prog.Exec (Proxmox.rollback (.proxmox node vmid) original) h r)
    (hhost : Fenced node vmid config h) {i : Nat} {net0 digest upid : String}
    (hi : h[i]? = some ⟨.postConfig node vmid net0 digest, .ok upid⟩) :
    net0 = original ∧ (config i).net0 = quarantineNet0 original := by
  obtain ⟨hlt, hget⟩ := List.getElem?_eq_some_iff.mp hi
  have hsplit : h = h.take i ++ ⟨.postConfig node vmid net0 digest, .ok upid⟩ :: h.drop (i + 1) := by
    rw [← hget, getElem_cons_drop, take_append_drop]
  obtain ⟨earlier, nic, hread, hnic, hcall⟩ := rollback_writes hexec hsplit rfl
  injection hcall with _ _ hnet0 hdigest
  have hlen : i = earlier.length + 1 := by
    have := congrArg List.length hread
    rw [length_take, min_eq_left hlt.le, length_append, length_singleton] at this
    exact this
  -- the reading is the call before
  have hbefore : h[earlier.length]? = some ⟨.readNet0 node vmid, .ok nic⟩ := by
    rw [hsplit, hread, append_assoc, getElem?_append_right le_rfl, Nat.sub_self]
    rfl
  have hsame : config i = config earlier.length := by
    apply hhost.digests
    rw [hhost.writes i net0 digest upid hi, ← hhost.reads _ nic hbefore, hdigest]
  refine ⟨hnet0, ?_⟩
  rw [hsame, ← hhost.reads _ nic hbefore, hnic]

/-! ## Isolation and rollback agree -/

/-- An isolation edits one option, on every NIC; the test before a rollback accepts the isolated
form of the recorded NIC and nothing else; and whatever its calls are answered, a rollback writes
the recorded NIC right after reading that form, under the digest it has read. -/
theorem isolation_edits_one_option :
    (∀ net0, otherOptions (quarantineNet0 net0) = otherOptions net0 ∧
      (options (quarantineNet0 net0)).filter isLinkDown = ["link_down=1".toList] ∧
      quarantineNet0 (quarantineNet0 net0) = quarantineNet0 net0 ∧
      net0IsQuarantined (quarantineNet0 net0) = true) ∧
    (∀ original, net0IsQuarantined original = false → ∀ current,
      (rollbackNeeded current original = .ok true ↔ current = quarantineNet0 original)) ∧
    ∀ node vmid original h r,
      Prog.Exec (Proxmox.rollback (.proxmox node vmid) original) h r →
      (∀ before e after, h = before ++ e :: after → MayRestore node vmid original before e.call) ∧
      ∀ config, Fenced node vmid config h → ∀ i net0 digest upid,
        h[i]? = some ⟨.postConfig node vmid net0 digest, .ok upid⟩ →
        net0 = original ∧ (config i).net0 = quarantineNet0 original := by
  refine ⟨fun net0 => ⟨otherOptions_quarantineNet0 net0, linkDown_quarantineNet0 net0,
    quarantineNet0_quarantineNet0 net0, net0IsQuarantined_quarantineNet0 net0⟩,
    fun original h current => rollbackNeeded_iff h current, ?_⟩
  intro node vmid original h r hexec
  exact ⟨fun before e after hsplit => rollback_writes hexec hsplit,
    fun config hhost i net0 digest upid hi => rollback_overwrites hexec hhost hi⟩

end Clawforge.Quarantine
