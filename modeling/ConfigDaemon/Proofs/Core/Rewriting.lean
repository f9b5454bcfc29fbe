import ConfigDaemon.Proofs.Core.Congruence
import ConfigDaemon.Proofs.Log.Likeness

/-! # Daemons whose files differ

Apart from replays no operation depends on what the log holds. Two daemons that differ in that alone
go on to do so, also if their compactions and sweeps come upon the databases in another order.
-/

namespace ConfigDaemon.Core

open Log

/-- Two daemons that differ at most in what the files of their disks hold, which is related. What
they may tell their logs is of a kind. -/
structure Rewritten (told : Log.Entry → Prop) (S : Bytes → Bytes → Prop) (c c' : Core) : Prop where
  rest : c' = { c with disk := c'.disk }
  disk : Disk.Like S c.disk c'.disk
  told : ∀ e ∈ c.snapshot, told e

/-! ## Telling the log at once -/

theorem append_append (d : Disk) (n : Nat) (bytes more : Bytes) :
    (d.append n bytes).append n more = d.append n (bytes ++ more) := by
  have hcontents : n < d.files.length → (d.append n bytes).contents n = d.contents n ++ bytes := by
    intro hn
    simp [Disk.append, Disk.fill, Disk.contents, List.getD_eq_getElem?_getD, hn]
  by_cases hn : n < d.files.length
  · rw [Disk.append, hcontents hn, List.append_assoc]
    simp [Disk.append, Disk.fill]
  · have hout : d.files.length ≤ n := Nat.le_of_not_lt hn
    simp [Disk.append, Disk.fill, List.set_eq_of_length_le, hout]

theorem makeFolder_of_makeFolder {d d' : Disk} (h : d.makeFolder = .ok d') :
    d'.makeFolder = .ok d' := by
  obtain ⟨site, files, pinned⟩ := d
  cases site <;> cases h <;> rfl

theorem openHandle_of_error {s : Store} {d d' : Disk} {f : Failure}
    (h : s.openHandle d = (.error f, d')) : s.openHandle d' = (.error f, d') := by
  unfold Store.openHandle at h ⊢
  cases hhandle : s.handle with
  | some n => rw [hhandle] at h; cases h
  | none =>
    rw [hhandle] at h
    dsimp only at h ⊢
    cases hmake : d.makeFolder with
    | error fault =>
      rw [hmake] at h
      cases h
      rw [hmake]
    | ok made =>
      rw [hmake] at h
      dsimp only at h
      cases hopen : made.openFile s.place.name with
      | error fault =>
        rw [hopen] at h
        cases h
        rw [makeFolder_of_makeFolder hmake]
        dsimp only
        rw [hopen]
      | ok opened => rw [hopen] at h; cases h

/-- Writes to the log at once what otherwise takes several entries. -/
def write (c : Core) (bytes : Bytes) : Core :=
  match c.log.openHandle c.disk with
  | (.error _, disk) => { c with disk, needsCompaction := true }
  | (.ok n, disk) =>
    { c with
      log := { c.log with handle := some n }
      disk := disk.append n bytes
      needsCompaction := true }

theorem logChange_eq (c : Core) (e : Log.Entry) : c.logChange e = c.write (Store.entryBytes e) := by
  rw [logChange, Store.append, write]
  rcases c.log.openHandle c.disk with ⟨f | n, disk⟩ <;> rfl

theorem write_write (c : Core) (bytes more : Bytes) :
    (c.write bytes).write more = c.write (bytes ++ more) := by
  cases hopen : c.log.openHandle c.disk with
  | mk r disk =>
    cases r with
    | error f =>
      have hfailed : ∀ bytes, c.write bytes = { c with disk, needsCompaction := true } := by
        intro bytes
        rw [write, hopen]
      rw [hfailed, hfailed, write, openHandle_of_error hopen]
    | ok n =>
      have hwritten : ∀ bytes, c.write bytes =
          { c with
            log := { c.log with handle := some n }
            disk := disk.append n bytes
            needsCompaction := true } := by
        intro bytes
        rw [write, hopen]
      rw [hwritten, hwritten, ← append_append]
      rfl

theorem logChanges_cons (c : Core) (e : Log.Entry) (es : List Log.Entry) :
    c.logChanges (e :: es) = c.write (logBytes (e :: es)) := by
  induction es generalizing c e with
  | nil =>
    have hbytes : Store.entryBytes e ++ logBytes [] = Store.entryBytes e := List.append_nil _
    rw [logBytes_cons, hbytes, ← logChange_eq]
    rfl
  | cons f es ih =>
    have hrest : c.logChanges (e :: f :: es) = (c.logChange e).logChanges (f :: es) := rfl
    rw [hrest, ih, logChange_eq, write_write, ← logBytes_cons]

/-! ## Operations that do not read the log -/

theorem rearranged_recordsIn (c : Core) (order order' : List String) :
    Rearranged Log.Record.Apart (c.recordsIn order) (c.recordsIn order') := by
  have hperm : (arrange order c.others.keys).Perm (arrange order' c.others.keys) :=
    (perm_arrange order _).trans (perm_arrange order' _).symm
  have hnodup : (arrange order c.others.keys).Nodup :=
    (perm_arrange order _).symm.nodup c.others.keys_ascending.nodup
  simp only [recordsIn, databases, List.flatMap_cons, List.flatMap_map]
  refine (Rearranged.flatMap (fun {a b} hne r hr s hs => ?_) hnodup hperm).append_left _
  obtain ⟨l, -, rfl⟩ := List.mem_map.mp hr
  obtain ⟨m, -, rfl⟩ := List.mem_map.mp hs
  exact hne

namespace Rewritten

variable {told : Log.Entry → Prop} {S : Bytes → Bytes → Prop} {c c' : Core}

theorem told_record (h : Rewritten told S c c') {r : Log.Record} (hr : r ∈ c.records) :
    told (.addListener r) :=
  h.told _ (mem_snapshot.mpr ⟨not_false, hr⟩)

theorem told_client (h : Rewritten told S c c') {a : String} (ha : a ∈ c.clients.keys) :
    told (.addClient a) :=
  h.told _ (mem_snapshot.mpr ⟨not_false, ha⟩)

theorem told_setDatabase (h : Rewritten told S c c') {a : Option String} {d : Database}
    (hd : ∀ l ∈ d.listeners.toList, told (.addListener (recordOf a l))) :
    ∀ e ∈ (c.setDatabase a d).snapshot, told e := by
  intro e he
  obtain ⟨hadd, hholds⟩ := mem_snapshot.mp he
  cases e with
  | addClient client => exact h.told_client ((clients_setDatabase c a d) ▸ hholds)
  | addListener r =>
    obtain ⟨b, hname, hl⟩ := mem_records.mp hholds
    rw [listener?_setDatabase] at hl
    split at hl
    · rename_i hb
      have hr : recordOf a ⟨r.id, r.location, r.client⟩ = r := by rw [recordOf, ← hb, ← hname]
      exact hr ▸ hd _ (Registry.mem_toList.mpr hl)
    · exact h.told_record (mem_records.mpr ⟨b, hname, hl⟩)
  | removeClient | removeListener => exact (hadd trivial).elim

theorem of_withDisk {f : Core → Core} (h : Rewritten told S c c')
    (hf : ∀ d, f { c with disk := d } = { f c with disk := d })
    (hdisk : (f c).disk = c.disk) (htold : ∀ e ∈ (f c).snapshot, told e) :
    Rewritten told S (f c) (f c') := by
  have he := hf c'.disk
  rw [← h.rest] at he
  exact ⟨by rw [he], by rw [he, hdisk]; exact h.disk, htold⟩

section Tolerant

variable (hS : Tolerant told S) (h : Rewritten told S c c')

include hS h

theorem write {es fs : List Log.Entry} (hes : ∀ e ∈ es, told e)
    (hfs : Rearranged Log.Entry.Apart es fs) :
    Rewritten told S (c.write (logBytes es)) (c'.write (logBytes fs)) := by
  have hlike := c.log.openHandle_like h.disk
  have hlog : c'.log = c.log := by rw [h.rest]
  revert hlike
  rw [Core.write, Core.write, hlog]
  rcases c.log.openHandle c.disk with ⟨r, d⟩
  rcases c.log.openHandle c'.disk with ⟨r', d'⟩
  rintro ⟨hr, hd⟩
  obtain rfl : r' = r := hr
  cases r' with
  | error f => exact ⟨by rw [h.rest], hd, h.told⟩
  | ok n =>
    exact ⟨by rw [h.rest], hd.fill n (hS.append (hd.contents n) hes hfs), h.told⟩

theorem logChanges {es fs : List Log.Entry} (hes : ∀ e ∈ es, told e)
    (hfs : Rearranged Log.Entry.Apart es fs) :
    Rewritten told S (c.logChanges es) (c'.logChanges fs) := by
  cases es with
  | nil =>
    obtain rfl := List.nil_perm.mp hfs.perm
    exact h
  | cons e es =>
    cases fs with
    | nil => cases List.perm_nil.mp hfs.perm
    | cons f fs =>
      rw [logChanges_cons, logChanges_cons]
      exact h.write hS hes hfs

theorem dropListeners (order order' : List String) (client : String) :
    Rewritten told S (c.dropListeners order client) (c'.dropListeners order' client) := by
  have hrecords : c'.recordsOf order' client = c.recordsOf order' client := by
    rw [h.rest]
    rfl
  have hdropped : Rewritten told S _ _ := h.of_withDisk (f := (mapDatabases · fun d =>
      { d with listeners := (d.listeners.removeClient client).2 })) (fun _ => rfl) rfl <| by
    intro e he
    obtain ⟨hadd, hholds⟩ := mem_snapshot.mp he
    cases e with
    | addClient client => exact h.told_client hholds
    | addListener r =>
      have hr : r ∈ c.recordsIn [] := by
        rw [Holds, records, recordsIn_removeClient] at hholds
        exact (List.mem_filter.mp hholds).1
      exact h.told_record hr
    | removeClient | removeListener => exact (hadd trivial).elim
  rw [dropListeners_eq, dropListeners_eq, hrecords]
  refine hdropped.logChanges hS (List.forall_mem_map.mpr fun r hr => ?_) ?_
  · have hr' := (c.perm_recordsIn order).mem_iff.mp (List.mem_filter.mp hr).1
    exact hS.opposite (h.told_record hr')
  · exact ((rearranged_recordsIn c order order').filter _).map id

theorem compact (order order' : List String) :
    Agrees (Rewritten told S) (c.compact order) (c'.compact order') := by
  have hlog : c'.log = c.log := by rw [h.rest]
  have hsnapshot : c'.snapshotIn order' = c.snapshotIn order' := by
    rw [h.rest]
    rfl
  have htold : ∀ e ∈ c.snapshotIn order, told e := fun e he =>
    h.told e ((c.perm_snapshotIn order).mem_iff.mp he)
  have hlisteners : Rearranged Log.Entry.Apart ((c.recordsIn order).map .addListener)
      ((c.recordsIn order').map .addListener) := (rearranged_recordsIn c order order').map id
  have hrearranged : Rearranged Log.Entry.Apart (c.snapshotIn order) (c.snapshotIn order') :=
    hlisteners.append_left _
  have hcompacted := c.log.compact_like hS h.disk htold hrearranged
  revert hcompacted
  rw [Core.compact, Core.compact, hlog, hsnapshot]
  rcases c.log.compact c.disk (c.snapshotIn order) with ⟨r, log, d⟩
  rcases c.log.compact c'.disk (c.snapshotIn order') with ⟨r', log', d'⟩
  rintro ⟨hr, hlog', hd⟩
  obtain rfl : r' = r := hr
  obtain rfl : log' = log := hlog'
  cases r' with
  | error f => exact ⟨rfl, by rw [h.rest], hd, h.told⟩
  | ok => exact ⟨rfl, by rw [h.rest], hd, h.told⟩

end Tolerant

theorem congruence (hS : Tolerant told S) :
    Congruence told (fun _ _ => True) (Rewritten told S) where
  rest h := by
    rw [h.rest]
    rfl
  database h a := by
    rw [h.rest]
    cases a <;> rfl
  records h := by
    rw [h.rest]
    rfl
  told_snapshot h := h.told
  opposite := hS.opposite
  withRest h b hb := by
    refine ⟨by rw [h.rest]; rfl, h.disk, ?_⟩
    rw [snapshot, List.forall_mem_append, List.forall_mem_map, List.forall_mem_map]
    exact ⟨hb, fun r hr => h.told_record hr⟩
  setDatabase h a d hd := by
    refine h.of_withDisk (f := (Core.setDatabase · a d)) (fun _ => ?_)
      (log_setDatabase _ a d).2 (h.told_setDatabase hd)
    cases a <;> rfl
  queueChange h a key value := by
    refine h.of_withDisk (f := (Core.queueChange · a key value)) (fun _ => ?_) rfl h.told
    cases a <;> rfl
  dropCourier h client := ⟨by rw [h.rest], h.disk, h.told⟩
  logChange h e he := h.logChanges hS (List.forall_mem_singleton.mpr he) (.refl [e])
  dropListeners h o o' _ client := h.dropListeners hS o o' client
  compact h o o' _ := h.compact hS o o'

end Rewritten

end ConfigDaemon.Core
