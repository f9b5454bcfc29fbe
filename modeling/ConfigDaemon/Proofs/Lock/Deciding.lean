import ConfigDaemon.Proofs.Items
import ConfigDaemon.Proofs.Lock.Ownership

/-! # What decides an attempt

Whether a lock directory can be taken depends on what has the name of the address file, and on the
locks on that. An attempt that succeeds replaces the address file and nothing else, and one that
fails leaves all entries as they were, so that no temporary name remains. This is so as long as the
temporary names are not in use: an attempt that comes upon another file under such a name fails and
takes that name away.
-/

namespace ConfigDaemon.Lock

open Text Disk

/-- The owner that the contents of a locked file tell of, if they can be read. -/
def holderIn (bytes : Bytes) : Holder :=
  ((textOf bytes).toOption.map Holder.ofContents).getD .absent

/-- An attempt does no more than this: files are added, and the address file is another one. -/
structure Spares (d d' : Disk) : Prop where
  find_eq : ∀ name ≠ addressFile, d'.find name = d.find name
  grown : ∃ more, d'.files = d.files ++ more

variable {p : Place} {w : World} {address : Option String} {es : Table String Entry}
  {files : List Bytes} {pinned : Bool} {locks : List Opening} {next n : Nat} {d d' : Disk}
  {t t' : Stamp}

theorem Spares.item?_eq (h : Spares d d') (hd : d.Stored) {name : String}
    (hfind : d'.find name = d.find name) : d'.item? name = d.item? name := by
  obtain ⟨more, hfiles⟩ := h.grown
  apply item?_congr hfind
  intro e he n hn
  rw [contents, contents, hfiles]
  exact getD_append (hd name e he n hn) more

/-! ## Failures -/

def refusal (p : Place) (d : Disk) : Failure :=
  match d.makeFolder with
  | .error f => .lockFailed p.folder "couldn't create directory" (some f.message)
  | .ok _ =>
    match d.find addressFile with
    | .ok (.file n) => .lockHeld p.addressPath (holderIn (d.contents n))
    | _ => .lockFailed p.addressPath "failed to create or open" (some Fault.isFolder.message)

theorem acquire_blocked (look make : Fault) :
    acquire p t t' ⟨⟨.blocked look make, files, pinned⟩, locks, next⟩ address =
      (.error (refusal p ⟨.blocked look make, files, pinned⟩),
        ⟨⟨.blocked look make, files, pinned⟩, locks, next⟩) :=
  rfl

theorem heldFailure_file (h : d.find addressFile = .ok (.file n)) :
    heldFailure p d = .lockHeld p.addressPath (holderIn (d.contents n)) := by
  have hread : d.readText addressFile = textOf (d.contents n) := by rw [readText, Disk.read, h]
  rw [heldFailure, currentHolder, hread, holderIn, textOf]
  cases Utf8.decode (d.contents n) <;> rfl

section Refused

variable (ht : p.Fresh ⟨.folder es, files, pinned⟩ t)
  (hw : World.Sound ⟨⟨.folder es, files, pinned⟩, locks, next⟩)

include ht hw

/-- An address file that somebody has locked stays. -/
theorem acquire_held {l : Opening} (hl : l ∈ locks)
    (h : es.find? addressFile = some (.file l.file)) :
    acquire p t t' ⟨⟨.folder es, files, pinned⟩, locks, next⟩ address =
      (.error (refusal p ⟨.folder es, files, pinned⟩),
        ⟨⟨.folder es, files ++ [Utf8.encode (Holder.record p.pid address)], pinned⟩,
          locks, next + 1⟩) := by
  rw [acquire_locked (fresh_folder.mp ht) hw.locked h hl rfl (hw.numbered l hl)]
  rw [heldFailure_file (find_folder_eq_ok.mpr h), contents, getD_append (hw.locked l hl)]
  simp only [refusal, makeFolder, find_folder, h, contents]

theorem acquire_displaced {inside : Nodes} (h : es.find? addressFile = some (.folder inside)) :
    acquire p t t' ⟨⟨.folder es, files, pinned⟩, locks, next⟩ address =
      (.error (refusal p ⟨.folder es, files, pinned⟩),
        ⟨⟨.folder es, files ++ [Utf8.encode (Holder.record p.pid address)], pinned⟩,
          locks, next + 1⟩) := by
  simp only [refusal, acquire, makeFolder, World.withDisk,
    createLocked_taken pinned next _ (fresh_folder.mp ht) hw.locked h, clearStale, find_folder, h]

end Refused

/-- A folder that cannot be taken has an address file that is locked, or a folder in its place. -/
theorem exists_of_not_vacant (hw : World.Sound ⟨⟨.folder es, files, pinned⟩, locks, next⟩)
    (hv : ¬ World.Vacant ⟨⟨.folder es, files, pinned⟩, locks, next⟩) :
    (∃ l ∈ locks, es.find? addressFile = some (.file l.file)) ∨
      ∃ inside, es.find? addressFile = some (.folder inside) := by
  rcases he : es.find? addressFile with _ | ⟨n⟩ | ⟨inside⟩
  · refine absurd ⟨hw, nofun, fun e hfind => ?_⟩ hv
    rw [find_folder_eq_ok, he] at hfind
    cases hfind
  · left
    by_contra hfree
    refine hv ⟨hw, nofun, fun e hfind => ⟨n, ?_, fun l hl hfile => hfree ⟨l, hl, by rw [hfile]⟩⟩⟩
    rw [find_folder_eq_ok, he] at hfind
    exact (Option.some.inj hfind).symm
  · exact .inr ⟨inside, rfl⟩

theorem acquire_not_vacant (ht : p.Fresh w.disk t) (t' : Stamp) (hw : w.Sound) (hv : ¬ w.Vacant)
    (address : Option String) :
    ∃ w', acquire p t t' w address = (.error (refusal p w.disk), w') ∧ Spares w.disk w'.disk ∧
      w'.disk.find addressFile = w.disk.find addressFile ∧ w'.locks = w.locks := by
  obtain ⟨⟨site, files, pinned⟩, locks, next⟩ := w
  cases site with
  | missing => exact absurd ⟨hw, nofun, nofun⟩ hv
  | blocked look make =>
    exact ⟨_, acquire_blocked look make, ⟨fun _ _ => rfl, [], (List.append_nil _).symm⟩, rfl, rfl⟩
  | folder es =>
    have hsame : Spares ⟨.folder es, files, pinned⟩
        ⟨.folder es, files ++ [Utf8.encode (Holder.record p.pid address)], pinned⟩ :=
      ⟨fun _ _ => rfl, _, rfl⟩
    rcases exists_of_not_vacant hw hv with ⟨l, hl, he⟩ | ⟨inside, he⟩
    · exact ⟨_, acquire_held ht hw hl he, hsame, rfl, rfl⟩
    · exact ⟨_, acquire_displaced ht hw he, hsame, rfl, rfl⟩

/-! ## Any attempt -/

theorem spares_of_vacant_folder (ht : p.Fresh ⟨.folder es, files, pinned⟩ t)
    (ht' : p.Fresh ⟨.folder es, files, pinned⟩ t')
    (hv : World.Vacant ⟨⟨.folder es, files, pinned⟩, locks, next⟩) (address : Option String) :
    Spares ⟨.folder es, files, pinned⟩
      (acquire p t t' ⟨⟨.folder es, files, pinned⟩, locks, next⟩ address).2.disk := by
  rw [fresh_folder] at ht ht'
  rcases he : es.find? addressFile with _ | e
  · rw [acquire_free ht hv.locked he]
    refine ⟨fun name hname => ?_, _, rfl⟩
    simp [find_folder, Table.find?_insert, hname]
  · obtain ⟨n, rfl, hfree⟩ := hv.unlocked e (find_folder_eq_ok.mpr he)
    rw [acquire_unlocked ht ht' hv.locked he hfree]
    refine ⟨fun name hname => ?_, _, List.append_assoc _ _ _⟩
    simp [find_folder, Table.find?_insert, Table.find?_erase, hname]

theorem spares_of_vacant (ht : p.Fresh w.disk t) (ht' : p.Fresh w.disk t') (hv : w.Vacant)
    (address : Option String) : Spares w.disk (acquire p t t' w address).2.disk := by
  obtain ⟨⟨site, files, pinned⟩, locks, next⟩ := w
  cases site with
  | missing =>
    have hmade : World.Vacant ⟨⟨.folder .empty, files, pinned⟩, locks, next⟩ :=
      ⟨⟨hv.named, hv.locked, hv.numbered⟩, nofun, hv.unlocked⟩
    obtain ⟨hfind, hgrown⟩ :=
      spares_of_vacant_folder (fresh_folder.mpr rfl) (fresh_folder.mpr rfl) hmade address
    exact ⟨hfind, hgrown⟩
  | blocked look make => exact absurd rfl (hv.reachable look make)
  | folder es => exact spares_of_vacant_folder ht ht' hv address

/-- An attempt succeeds if the directory is there or can be made, and the address file is not there
or has no lock on it. The address file is then a new one that holds just the record, and the lock on
it is that of the opening that was returned. Otherwise the attempt fails, for a locked address file
with the owner that its contents tell of, and all entries are as they were. The other entries are so
in any case. -/
theorem acquire_decided_by_lock (ht : p.Fresh w.disk t) (ht' : p.Fresh w.disk t') (hw : w.Sound)
    (hd : w.disk.Stored) (address : Option String) :
    match acquire p t t' w address with
    | (.ok o, w') => w.Vacant ∧ w'.OwnedBy ⟨p, address, o⟩ ∧
        w'.disk.item? addressFile = some (.file (Utf8.encode (Holder.record p.pid address))) ∧
        ∀ name ≠ addressFile,
          w'.disk.find name = w.disk.find name ∧ w'.disk.item? name = w.disk.item? name
    | (.error f, w') => ¬ w.Vacant ∧ f = refusal p w.disk ∧ w'.locks = w.locks ∧
        ∀ name, w'.disk.find name = w.disk.find name ∧ w'.disk.item? name = w.disk.item? name := by
  by_cases hv : w.Vacant
  · have hspares := spares_of_vacant ht ht' hv address
    obtain ⟨o, w', hacquire, howned⟩ := acquire_vacant ht ht' hv address
    rw [hacquire] at hspares ⊢
    refine ⟨hv, howned, ?_, fun name hname => ?_⟩
    · rw [item?_of_find howned.published, itemOf, howned.recorded]
      rfl
    · have hfind := hspares.find_eq name hname
      exact ⟨hfind, hspares.item?_eq hd hfind⟩
  · obtain ⟨w', hacquire, hspares, hsame, hlocks⟩ := acquire_not_vacant ht t' hw hv address
    rw [hacquire]
    refine ⟨hv, rfl, hlocks, fun name => ?_⟩
    have hfind : w'.disk.find name = w.disk.find name := by
      by_cases hname : name = addressFile
      · rw [hname, hsame]
      · exact hspares.find_eq name hname
    exact ⟨hfind, hspares.item?_eq hd hfind⟩

/-- An address file that cannot be read, beside a folder: it is replaced while nobody has locked it,
and while somebody has it tells of no owner. -/
theorem acquire_beside_folder :
    let p : Place := ⟨"confd", 7⟩
    let t : Stamp := ⟨0x1f, 4⟩
    let t' : Stamp := ⟨0x20, 5⟩
    let d : Disk := ⟨.folder (.ofList [("ior", .file 0), ("notes", .folder [(["a"], .file 1)])]),
      [[0xFF], [0x61]], false⟩
    (∃ o w', acquire p t t' ⟨d, [], 0⟩ (some "/run/a") = (.ok o, w') ∧
      w'.disk.item? addressFile = some (.file (Utf8.encode "7:/run/a".toList)) ∧
      w'.disk.item? "notes" = some (.folder [(["a"], some [0x61])])) ∧
    ∃ w', acquire p t t' ⟨d, [⟨0, 0⟩], 1⟩ (some "/run/a") =
        (.error (.lockHeld "confd/ior" .absent), w') ∧
      ∀ name, w'.disk.item? name = d.item? name := by
  intro p t t' d
  have ht : p.Fresh d t := by decide +kernel
  have ht' : p.Fresh d t' := by decide +kernel
  have hd : d.Stored := stored_folder (by decide +kernel)
  have hfile : d.find addressFile = .ok (.file 0) := by decide +kernel
  have hfree : World.Vacant ⟨d, [], 0⟩ := by
    refine ⟨⟨fun _ _ hn => hd.lt hn, nofun, nofun⟩, nofun, fun e he => ⟨0, ?_, nofun⟩⟩
    cases hfile.symm.trans he
    rfl
  have hlocked : World.Sound ⟨d, [⟨0, 0⟩], 1⟩ :=
    ⟨fun _ _ hn => hd.lt hn, by decide +kernel, by decide +kernel⟩
  have hheld : ¬ World.Vacant ⟨d, [⟨0, 0⟩], 1⟩ := by
    intro hv
    obtain ⟨n, hn, hunlocked⟩ := hv.unlocked _ hfile
    cases hn
    exact hunlocked ⟨0, 0⟩ List.mem_cons_self rfl
  constructor
  · have h := acquire_decided_by_lock ht ht' hfree.toSound hd (some "/run/a")
    rcases hacquire : acquire p t t' ⟨d, [], 0⟩ (some "/run/a") with ⟨f | o, w'⟩ <;>
      rw [hacquire] at h
    · exact absurd hfree h.1
    · obtain ⟨-, -, hrecord, hothers⟩ := h
      refine ⟨o, w', rfl, hrecord.trans (by decide +kernel), ?_⟩
      rw [(hothers "notes" (by decide)).2]
      decide +kernel
  · have h := acquire_decided_by_lock ht ht' hlocked hd (some "/run/a")
    rcases hacquire : acquire p t t' ⟨d, [⟨0, 0⟩], 1⟩ (some "/run/a") with ⟨f | o, w'⟩ <;>
      rw [hacquire] at h
    · obtain ⟨-, hf, -, hothers⟩ := h
      have htold : f = .lockHeld "confd/ior" .absent := hf.trans (by decide +kernel)
      exact ⟨w', by rw [htold], fun name => (hothers name).2⟩
    · exact absurd h.1 hheld

end ConfigDaemon.Lock
