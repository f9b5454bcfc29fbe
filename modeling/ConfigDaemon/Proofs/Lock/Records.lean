import ConfigDaemon.Lock.Election
import ConfigDaemon.Proofs.Text.Lines

/-! # Records read back

What an address file tells of its owner is read off its first line. A record is read as it was
written if its address can be told from none, and only such addresses are ever read.
-/

namespace ConfigDaemon.Holder

open Text

/-- An address that can be told from none: there is some of it, on one line, and it is not the word
for none with blanks behind it. -/
structure Callable (address : String) : Prop where
  ne_empty : address ≠ ""
  oneLine : '\n' ∉ address.toList
  ne_none : trimEnd address.toList ≠ noAddress.toList

variable {pid : UInt32} {address : String} {published : Option String} {contents : List Char}

theorem suffix_dropColon (s : List Char) : dropColon s <:+ s := by
  cases s with
  | nil => exact List.suffix_rfl
  | cons c s =>
    rw [dropColon]
    split
    · exact List.suffix_cons c s
    · exact List.suffix_rfl

/-- A daemon is read off a line that begins with its identifier and has an address behind it. -/
theorem ofContents_eq_daemon_iff :
    ofContents contents = .daemon pid address ↔
      readUInt32 ((firstLine contents).takeWhile isDigit) = some pid ∧
        dropColon ((firstLine contents).dropWhile isDigit) = address.toList ∧
        address ≠ "" ∧ trimEnd address.toList ≠ noAddress.toList := by
  have hempty : address = "" ↔ address.toList = [] := String.toList_eq_nil_iff.symm
  simp only [ofContents]
  constructor
  · intro h
    split at h
    · cases h
    · rename_i hnot
      split at h
      · rename_i hpid
        cases h
        rw [ne_eq, hempty, String.toList_ofList]
        exact ⟨hpid, rfl, not_or.mp hnot⟩
      · cases h
  · rintro ⟨hpid, hrest, hne, hnone⟩
    rw [hrest, hpid, if_neg (not_or.mpr ⟨mt hempty.mpr hne, hnone⟩), String.ofList_toList]

theorem callable_of_ofContents (h : ofContents contents = .daemon pid address) :
    Callable address := by
  obtain ⟨-, hrest, hne, hnone⟩ := ofContents_eq_daemon_iff.mp h
  refine ⟨hne, fun hmem => newline_not_mem_firstLine contents ?_, hnone⟩
  rw [← hrest] at hmem
  exact (List.dropWhile_sublist _).subset ((suffix_dropColon _).subset hmem)

theorem firstLine_record (h : '\n' ∉ (published.getD noAddress).toList) :
    firstLine (record pid published) = record pid published := by
  apply firstLine_of_not_mem
  rw [record, List.mem_append, List.mem_cons]
  rintro (hdigit | hcolon | hmem)
  · exact absurd (isDigit_decimal hdigit) (by decide)
  · exact absurd hcolon (by decide)
  · exact h hmem

/-- The identifier ends at the colon, whatever the address begins with. -/
theorem parts_record (pid : UInt32) (published : Option String) :
    readUInt32 ((record pid published).takeWhile isDigit) = some pid ∧
      dropColon ((record pid published).dropWhile isDigit) =
        (published.getD noAddress).toList := by
  have hdigits : ∀ c ∈ decimal pid.toNat, isDigit c = true := fun _ => isDigit_decimal
  have hcolon : isDigit ':' ≠ true := by decide
  constructor
  · rw [record, List.takeWhile_append_of_pos hdigits, List.takeWhile_cons_of_neg hcolon,
      List.append_nil, readUInt32_decimal]
  · rw [record, List.dropWhile_append_of_pos hdigits, List.dropWhile_cons_of_neg hcolon]
    rfl

theorem ofContents_record (h : Callable address) :
    ofContents (record pid (some address)) = .daemon pid address := by
  obtain ⟨hpid, hrest⟩ := parts_record pid (some address)
  have hline : firstLine (record pid (some address)) = record pid (some address) :=
    firstLine_record h.oneLine
  rw [ofContents_eq_daemon_iff, hline]
  exact ⟨hpid, hrest, h.ne_empty, h.ne_none⟩

theorem ofContents_record_none (pid : UInt32) :
    ofContents (record pid none) = .placeholder (some pid) := by
  obtain ⟨hpid, hrest⟩ := parts_record pid none
  have hnone : trimEnd noAddress.toList = noAddress.toList := by decide
  simp only [ofContents]
  rw [firstLine_record (by decide), hpid, hrest]
  exact if_pos (.inr hnone)

theorem exists_of_currentHolder {p : Lock.Place} {d : Disk}
    (h : Lock.currentHolder p d = .ok (.daemon pid address)) :
    ∃ contents, d.readText Lock.addressFile = .ok contents ∧
      ofContents contents = .daemon pid address := by
  unfold Lock.currentHolder at h
  split at h
  · rename_i contents hread
    exact ⟨contents, hread, Except.ok.inj h⟩
  · cases h
  · cases h

/-- A record with an address is read as that of a daemon just when the address can be told from
none, and a record without one as that of an owner that is no daemon. Whatever a file contains, a
daemon that is read off it has such an address, and its record is read as the same daemon. -/
theorem published_iff_callable (pid : UInt32) (address : String) :
    (ofContents (record pid (some address)) = .daemon pid address ↔ Callable address) ∧
      ofContents (record pid none) = .placeholder (some pid) ∧
      (∀ contents, ofContents contents = .daemon pid address →
        Callable address ∧ ofContents (record pid (some address)) = .daemon pid address) ∧
      ∀ p d, Lock.currentHolder p d = .ok (.daemon pid address) →
        Callable address ∧ ofContents (record pid (some address)) = .daemon pid address := by
  have hread : ∀ contents, ofContents contents = .daemon pid address →
      Callable address ∧ ofContents (record pid (some address)) = .daemon pid address :=
    fun _ h => ⟨callable_of_ofContents h, ofContents_record (callable_of_ofContents h)⟩
  refine ⟨⟨callable_of_ofContents, ofContents_record⟩, ofContents_record_none pid, hread,
    fun p d h => ?_⟩
  obtain ⟨contents, -, hcontents⟩ := exists_of_currentHolder h
  exact hread contents hcontents

/-- An address that only begins like the word for none, behind leading zeros and without a colon. -/
theorem published_iff_callable_of_loose :
    let contents := "0042none.sock\r\n7:/other".toList
    ofContents contents = .daemon 42 "none.sock" ∧ Callable "none.sock" ∧
      ofContents (record 42 (some "none.sock")) = .daemon 42 "none.sock" ∧
      ofContents (record 42 (some "none \t")) = .placeholder (some 42) := by
  intro contents
  have hcontents : ofContents contents = .daemon 42 "none.sock" := by decide
  obtain ⟨-, -, hread, -⟩ := published_iff_callable 42 "none.sock"
  exact ⟨hcontents, (hread contents hcontents).1, (hread contents hcontents).2, by decide⟩

end ConfigDaemon.Holder
