import ConfigDaemon.Proofs.Log.Store

/-! # Logs with junk in them that break off

Between the lines of entries there may be lines of any bytes that are read as no entry, and the file
may break off anywhere, also inside a character. What is read are the entries whose text was there
in full: a line that breaks off is read as no entry.
-/

namespace ConfigDaemon.Log

open Text

def lineFeed : UInt8 := 0x0A

inductive Row
  | entry (e : Entry)
  | junk (bytes : Bytes)

namespace Row

def bytes : Row → Bytes
  | .entry e => Utf8.encode e.line
  | .junk bytes => bytes

def entries : Row → List Entry
  | .entry e => [e]
  | .junk _ => []

/-- An entry can be written and read back; junk is one line that is read as no entry, as a blank one
is (`ofLine_blank`). -/
def Proper : Row → Prop
  | .entry e => e.Recordable
  | .junk bytes => lineFeed ∉ bytes ∧ (Entry.ofLine (Utf8.decodeLenient bytes)).toOption = none

instance : DecidablePred Proper
  | .entry e => inferInstanceAs (Decidable e.Recordable)
  | .junk bytes => inferInstanceAs (Decidable (lineFeed ∉ bytes ∧
      (Entry.ofLine (Utf8.decodeLenient bytes)).toOption = none))

end Row

def bytesOfRows (rows : List Row) : Bytes :=
  rows.flatMap fun row => row.bytes ++ [lineFeed]

theorem bytesOfRows_cons (row : Row) (rows : List Row) :
    bytesOfRows (row :: rows) = row.bytes ++ lineFeed :: bytesOfRows rows := by
  rw [bytesOfRows, List.flatMap_cons, List.append_assoc]
  rfl

theorem bytesOfRows_append (rows later : List Row) :
    bytesOfRows (rows ++ later) = bytesOfRows rows ++ bytesOfRows later :=
  List.flatMap_append

theorem decodeLenient_append_lineFeed (bytes rest : Bytes) :
    Utf8.decodeLenient (bytes ++ lineFeed :: rest) =
      Utf8.decodeLenient bytes ++ '\n' :: Utf8.decodeLenient rest :=
  Utf8.decodeLenient_append_ascii (c := '\n') (by decide) bytes rest

/-! ## One line -/

theorem entriesOfBytes_of_not_mem {bytes : Bytes} (h : '\n' ∉ Utf8.decodeLenient bytes) :
    entriesOfBytes bytes = (Entry.ofLine (Utf8.decodeLenient bytes)).toOption.toList := by
  rw [entriesOfBytes_eq, wholeLines, unfinished, segments_of_not_mem h]
  rfl

theorem entriesOfBytes_line_append {bytes : Bytes} (h : '\n' ∉ Utf8.decodeLenient bytes)
    (rest : Bytes) :
    entriesOfBytes (bytes ++ lineFeed :: rest) =
      (Entry.ofLine (dropReturn (Utf8.decodeLenient bytes))).toOption.toList ++
        entriesOfBytes rest := by
  rw [entriesOfBytes, decodeLenient_append_lineFeed, entriesOfText, lines_line_append h,
    List.filterMap_cons]
  cases (Entry.ofLine (dropReturn (Utf8.decodeLenient bytes))).toOption <;> rfl

namespace Row.Proper

variable {row : Row}

theorem newline_not_mem (h : row.Proper) : '\n' ∉ Utf8.decodeLenient row.bytes := by
  cases row with
  | entry e =>
    rw [Row.bytes, Utf8.decodeLenient_encode]
    exact Entry.newline_not_mem_line h.oneLine
  | junk bytes => exact fun hn => h.1 (Utf8.mem_of_mem_decodeLenient (by decide) (by decide) hn)

theorem ofLine_beginning {bytes : Bytes} (h : (junk bytes).Proper) {s : List Char}
    (hs : s <+: Utf8.decodeLenient bytes) (f : Entry) : Entry.ofLine s ≠ .ok f := by
  intro hread
  have hnone := h.2
  rw [Entry.ofLine_mono hs hread] at hnone
  cases hnone

theorem entries_eq (h : row.Proper) :
    (Entry.ofLine (Utf8.decodeLenient row.bytes)).toOption.toList = row.entries ∧
      (Entry.ofLine (dropReturn (Utf8.decodeLenient row.bytes))).toOption.toList = row.entries := by
  cases row with
  | entry e =>
    have hreturn := dropReturn_line e []
    have hline := Entry.ofLine_line h.complete (b := []) nofun
    rw [List.nil_append] at hreturn hline
    rw [Row.bytes, Utf8.decodeLenient_encode, hreturn, hline]
    exact ⟨rfl, rfl⟩
  | junk bytes =>
    have hskipped : ∀ s, s <+: Utf8.decodeLenient bytes →
        (Entry.ofLine s).toOption.toList = [] := by
      intro s hs
      cases hread : Entry.ofLine s with
      | error f => rfl
      | ok e => exact absurd hread (h.ofLine_beginning hs e)
    exact ⟨hskipped _ (List.prefix_refl _), hskipped _ (prefix_dropReturn _)⟩

theorem ofLine_take (h : row.Proper) {k : Nat} (hk : k < row.bytes.length) (f : Entry) :
    Entry.ofLine (Utf8.decodeLenient (row.bytes.take k)) ≠ .ok f := by
  -- a character that is cut is read as one that is no quotation mark
  obtain ⟨s, t, htaken, hs, hne, ht⟩ := Utf8.exists_decodeLenient_take hk
  have hmark : '"' ∉ t := fun hm => absurd (ht _ hm) (by decide)
  rw [htaken]
  cases row with
  | entry e =>
    rw [Row.bytes, Utf8.decodeLenient_encode] at hs hne
    exact Entry.ofLine_torn hs hne hmark f
  | junk bytes => exact fun hread => h.ofLine_beginning hs f (Entry.ofLine_of_append hmark hread)

theorem newline_not_mem_take (h : row.Proper) (k : Nat) :
    '\n' ∉ Utf8.decodeLenient (row.bytes.take k) := by
  rcases Nat.lt_or_ge k row.bytes.length with hk | hk
  · obtain ⟨s, t, htaken, hs, -, ht⟩ := Utf8.exists_decodeLenient_take hk
    rw [htaken, List.mem_append, not_or]
    exact ⟨fun hn => h.newline_not_mem (hs.subset hn), fun hn => absurd (ht _ hn) (by decide)⟩
  · rw [List.take_of_length_le hk]
    exact h.newline_not_mem

/-- Of a line that breaks off nothing is read, unless only the line feed is missing. -/
theorem entriesOfBytes_take (h : row.Proper) (k : Nat) :
    entriesOfBytes (row.bytes.take k) = if row.bytes.length ≤ k then row.entries else [] := by
  rw [entriesOfBytes_of_not_mem (h.newline_not_mem_take k)]
  split
  · rename_i hk
    rw [List.take_of_length_le hk, h.entries_eq.1]
  · rename_i hk
    cases hread : Entry.ofLine (Utf8.decodeLenient (row.bytes.take k)) with
    | error f => rfl
    | ok e => exact absurd hread (h.ofLine_take (Nat.lt_of_not_le hk) e)

end Row.Proper

/-! ## The whole log -/

theorem entriesOfBytes_rows_append {rows : List Row} (h : ∀ row ∈ rows, row.Proper) (rest : Bytes) :
    entriesOfBytes (bytesOfRows rows ++ rest) =
      rows.flatMap Row.entries ++ entriesOfBytes rest := by
  induction rows with
  | nil => rfl
  | cons row rows ih =>
    obtain ⟨hrow, hrows⟩ := List.forall_mem_cons.mp h
    rw [bytesOfRows_cons, List.append_assoc, List.cons_append,
      entriesOfBytes_line_append hrow.newline_not_mem, hrow.entries_eq.2, ih hrows,
      List.flatMap_cons, List.append_assoc]

theorem take_bytesOfRows {rows : List Row} {row : Row} {k : Nat} (hk : k ≤ row.bytes.length)
    (later : List Row) :
    (bytesOfRows (rows ++ row :: later)).take ((bytesOfRows rows).length + k) =
      bytesOfRows rows ++ row.bytes.take k := by
  rw [bytesOfRows_append, List.take_length_add_append, bytesOfRows_cons,
    List.take_append_of_le_length hk]

/-- Wherever a log breaks off in a line, it is read as what survives of the entries before that
line, and of its own entry if only the line feed is missing. Else what is there of the line is read
as no entry at all. -/
theorem Store.read_torn {rows : List Row} (hrows : ∀ row ∈ rows, row.Proper) {row : Row}
    (hrow : row.Proper) (later : List Row) {k : Nat} (hk : k ≤ row.bytes.length) {s : Store}
    {d : Disk} (hd : d.read s.place.name =
      .ok ((bytesOfRows (rows ++ row :: later)).take ((bytesOfRows rows).length + k))) :
    (s.read d).1 = .ok (.ofEntries (rows.flatMap Row.entries ++
        if row.bytes.length ≤ k then row.entries else [])) ∧
      (k < row.bytes.length →
        ∀ f, Entry.ofLine (Utf8.decodeLenient (row.bytes.take k)) ≠ .ok f) := by
  rw [take_bytesOfRows hk] at hd
  have hentries := entriesOfBytes_rows_append hrows (row.bytes.take k)
  rw [hrow.entriesOfBytes_take] at hentries
  constructor
  · rw [Store.read, hd, ← hentries]
  · exact fun hlt f => hrow.ofLine_take hlt f

/-- A log with a broken byte and a carriage return, a blank line and an entry that is known already
breaks off between the two bytes of a character. -/
theorem Store.read_torn_character :
    let p : Place := ⟨"/c", "saved"⟩
    let r : Record := ⟨1, "def", "/a\"b", "/ü"⟩
    let rows :=
      [.entry (.addClient "/é"), .junk [0xFF, 0x0D], .entry (.addListener r), .junk [0x20]]
    let row := Row.entry (.removeClient "/é")
    let bytes := (bytesOfRows (rows ++ row :: [])).take ((bytesOfRows rows).length + 16)
    16 < row.bytes.length ∧
      ((⟨p, none⟩ : Store).read (diskOf p bytes)).1 = .ok ⟨["/é"], [r]⟩ ∧
      ∀ f, Entry.ofLine (Utf8.decodeLenient (row.bytes.take 16)) ≠ .ok f := by
  intro p r rows row bytes
  have hrows : ∀ row ∈ rows, row.Proper := by decide +kernel
  have hrow : row.Proper := by decide +kernel
  have hlt : 16 < row.bytes.length := by decide +kernel
  obtain ⟨hread, htorn⟩ :=
    Store.read_torn hrows hrow [] hlt.le (s := ⟨p, none⟩) (read_diskOf p bytes)
  have hsurvive : Surviving.ofEntries (rows.flatMap Row.entries ++
      if row.bytes.length ≤ 16 then row.entries else []) = ⟨["/é"], [r]⟩ := by decide +kernel
  refine ⟨hlt, ?_, htorn hlt⟩
  rw [hread, hsurvive]

end ConfigDaemon.Log
