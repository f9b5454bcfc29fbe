import ConfigDaemon.Proofs.Disk
import ConfigDaemon.Proofs.Log.Rearrangement

/-! # Disks that differ in what files hold

Names and faults of a disk do not depend on what is in the files. So calls, appends and compactions
go alike on disks whose files are related, and leave them so.
-/

namespace ConfigDaemon

/-- Two disks that differ at most in what their files hold, which is related. -/
structure Disk.Like (S : Bytes → Bytes → Prop) (d d' : Disk) : Prop where
  rest : d' = { d with files := d'.files }
  length : d'.files.length = d.files.length
  contents : ∀ n, S (d.contents n) (d'.contents n)

namespace Disk

variable {S : Bytes → Bytes → Prop} {d d' : Disk}

theorem contents_fill (d : Disk) (n m : Nat) (bytes : Bytes) :
    (d.fill n bytes).contents m =
      if n = m ∧ n < d.files.length then bytes else d.contents m := by
  simp only [contents, fill, List.getD_eq_getElem?_getD, List.getElem?_set]
  by_cases hm : n = m
  · subst hm
    by_cases hn : n < d.files.length
    · simp [hn]
    · simp [hn]
  · simp [hm]

theorem contents_addFile (d : Disk) (es : Table String Entry) (name : String) (m : Nat) :
    (d.addFile es name).2.contents m = d.contents m := by
  simp only [contents, addFile, List.getD_eq_getElem?_getD, List.getElem?_append]
  split
  · rfl
  · rename_i hm
    rw [List.getElem?_eq_none (Nat.le_of_not_lt hm)]
    cases m - d.files.length <;> rfl

namespace Like

theorem entries (h : Like S d d') : d'.entries = d.entries := by
  rw [h.rest]
  rfl

theorem site (h : Like S d d') : d'.site = d.site := by
  rw [h.rest]

theorem find (h : Like S d d') (name : String) : d'.find name = d.find name := by
  rw [h.rest]
  rfl

theorem withEntries (h : Like S d d') (es : Table String Entry) :
    Like S (d.withEntries es) (d'.withEntries es) :=
  ⟨by rw [h.rest]; rfl, h.length, h.contents⟩

theorem fill (h : Like S d d') (n : Nat) {bytes bytes' : Bytes} (hb : S bytes bytes') :
    Like S (d.fill n bytes) (d'.fill n bytes') := by
  refine ⟨by rw [h.rest]; rfl, ?_, fun m => ?_⟩
  · simp only [Disk.fill, List.length_set, h.length]
  · rw [contents_fill, contents_fill, h.length]
    split
    · exact hb
    · exact h.contents m

theorem addFile (h : Like S d d') (es : Table String Entry) (name : String) :
    (d'.addFile es name).1 = (d.addFile es name).1 ∧
      Like S (d.addFile es name).2 (d'.addFile es name).2 := by
  refine ⟨h.length, ?_, ?_, fun m => ?_⟩
  · simp only [Disk.addFile, h.length]
    rw [h.rest]
    rfl
  · simp only [Disk.addFile, List.length_append, h.length]
  · rw [contents_addFile, contents_addFile]
    exact h.contents m

theorem openFile (h : Like S d d') (name : String) :
    (∃ f, d.openFile name = .error f ∧ d'.openFile name = .error f) ∨
      ∃ n e e', d.openFile name = .ok (n, e) ∧ d'.openFile name = .ok (n, e') ∧ Like S e e' := by
  rw [Disk.openFile, Disk.openFile, h.entries]
  cases d.entries with
  | error f => exact .inl ⟨f, rfl, rfl⟩
  | ok es =>
    dsimp only
    rcases es.find? name with _ | ⟨n⟩ | ⟨inside⟩
    · obtain ⟨hn, hadded⟩ := h.addFile es name
      exact .inr ⟨_, _, _, rfl, congrArg (fun n => Except.ok (n, _)) hn, hadded⟩
    · exact .inr ⟨n, d, d', rfl, rfl, h⟩
    · exact .inl ⟨.isFolder, rfl, rfl⟩

end Like

end Disk

namespace Log

open Disk (Like)

variable {S : Bytes → Bytes → Prop} {d d' : Disk} {α : Type}

def LikeAfter (S : Bytes → Bytes → Prop) (r r' : α × Disk) : Prop :=
  r'.1 = r.1 ∧ Like S r.2 r'.2

/-! ## Compactions -/

inductive Call.Like (S : Bytes → Bytes → Prop) : Call → Call → Prop
  | makeFolder : Call.Like S .makeFolder .makeFolder
  | stage (name : String) : Call.Like S (.stage name) (.stage name)
  | fill (name : String) {bytes bytes' : Bytes} (h : S bytes bytes') :
    Call.Like S (.fill name bytes) (.fill name bytes')
  | rename (old new : String) : Call.Like S (.rename old new) (.rename old new)
  | unlink (name : String) : Call.Like S (.unlink name) (.unlink name)

inductive Script.Like (S : Bytes → Bytes → Prop) : Script α → Script α → Prop
  | finish (a : α) : Script.Like S (.finish a) (.finish a)
  | look (name : String) {next next' : Bool → Script α}
    (h : ∀ there, Script.Like S (next there) (next' there)) :
    Script.Like S (.look name next) (.look name next')
  | call {c c' : Call} (hc : c.Like S c') {next next' : Option Fault → Script α}
    (h : ∀ fault, Script.Like S (next fault) (next' fault)) :
    Script.Like S (.call c next) (.call c' next')

theorem like_makeFolder (h : Like S d d') :
    LikeAfter S (Script.after d .makeFolder) (Script.after d' .makeFolder) := by
  unfold Script.after Call.perform Disk.makeFolder
  dsimp only
  rw [h.site]
  cases d.site with
  | missing => exact ⟨rfl, h.withEntries .empty⟩
  | blocked look make => exact ⟨rfl, h⟩
  | folder es => exact ⟨rfl, h⟩

theorem like_rename (h : Like S d d') (old new : String) :
    LikeAfter S (Script.after d (.rename old new)) (Script.after d' (.rename old new)) := by
  unfold Script.after Call.perform Disk.rename
  dsimp only
  rw [h.entries]
  cases d.entries with
  | error f => exact ⟨rfl, h⟩
  | ok es =>
    dsimp only
    cases es.find? old with
    | none => exact ⟨rfl, h⟩
    | some e =>
      dsimp only
      cases (es.find? new).bind (Disk.replaceFault e) with
      | some f => exact ⟨rfl, h⟩
      | none => exact ⟨rfl, h.withEntries _⟩

theorem like_unlink (h : Like S d d') (name : String) :
    LikeAfter S (Script.after d (.unlink name)) (Script.after d' (.unlink name)) := by
  unfold Script.after Call.perform Disk.unlink
  dsimp only
  rw [h.entries]
  cases d.entries with
  | error f => exact ⟨rfl, h⟩
  | ok es =>
    dsimp only
    rcases es.find? name with _ | ⟨n⟩ | ⟨inside⟩
    · exact ⟨rfl, h⟩
    · exact ⟨rfl, h.withEntries _⟩
    · exact ⟨rfl, h⟩

theorem like_stage (hnil : S [] []) (h : Like S d d') (name : String) :
    LikeAfter S (Script.after d (.stage name)) (Script.after d' (.stage name)) := by
  unfold Script.after Call.perform stageFile
  dsimp only
  rcases h.openFile name with ⟨f, hf, hf'⟩ | ⟨n, e, e', he, he', hopened⟩
  · rw [hf, hf']
    exact ⟨rfl, h⟩
  · rw [he, he']
    exact ⟨rfl, hopened.fill n hnil⟩

theorem like_fill (h : Like S d d') (name : String) {bytes bytes' : Bytes}
    (hb : S bytes bytes') :
    LikeAfter S (Script.after d (.fill name bytes)) (Script.after d' (.fill name bytes')) := by
  unfold Script.after Call.perform fillFile
  dsimp only
  rw [h.find]
  rcases d.find name with f | ⟨n⟩ | ⟨inside⟩
  · exact ⟨rfl, h⟩
  · exact ⟨rfl, h.fill n hb⟩
  · exact ⟨rfl, h⟩

theorem Call.Like.after (hnil : S [] []) {c c' : Call} (hc : c.Like S c') (h : Disk.Like S d d') :
    LikeAfter S (Script.after d c) (Script.after d' c') := by
  cases hc with
  | makeFolder => exact like_makeFolder h
  | stage name => exact like_stage hnil h name
  | fill name hb => exact like_fill h name hb
  | rename old new => exact like_rename h old new
  | unlink name => exact like_unlink h name

theorem Script.Like.run (hnil : S [] []) {s s' : Script α} (hs : s.Like S s')
    (h : Disk.Like S d d') : LikeAfter S (s.run d) (s'.run d') := by
  induction hs generalizing d d' with
  | finish a => exact ⟨rfl, h⟩
  | look name _ ih =>
    have hthere : d'.has name = d.has name := by rw [Disk.has, h.find, Disk.has]
    rw [Script.run, Script.run, hthere]
    exact ih _ h
  | call hc _ ih =>
    obtain ⟨hfault, hafter⟩ := hc.after hnil h
    rw [Script.run, Script.run, hfault]
    exact ih _ hafter

theorem like_abandon (S : Bytes → Bytes → Prop) (p : Place) (f : Failure) :
    (Script.abandon p f).Like S (Script.abandon p f) :=
  .call (.unlink _) fun _ => .finish _

theorem like_installScript (S : Bytes → Bytes → Prop) (p : Place) (movedAside : Bool) :
    (installScript p movedAside).Like S (installScript p movedAside) := by
  refine .call (.rename _ _) fun fault => ?_
  cases fault <;> cases movedAside
  · exact .finish _
  · exact .call (.unlink _) fun _ => .finish _
  · exact like_abandon S p _
  · exact .call (.rename _ _) fun _ => like_abandon S p _

theorem like_compactionScript (p : Place) {bytes bytes' : Bytes} (hb : S bytes bytes') :
    (compactionScript p bytes).Like S (compactionScript p bytes') := by
  refine .call .makeFolder fun fault => ?_
  cases fault with
  | some fault => exact .finish _
  | none =>
    refine .call (.stage _) fun fault => ?_
    cases fault with
    | some fault => exact like_abandon S p _
    | none =>
      refine .call (.fill _ hb) fun fault => ?_
      cases fault with
      | some fault => exact like_abandon S p _
      | none =>
        refine .look _ fun there => ?_
        cases there with
        | false => exact like_installScript S p false
        | true =>
          refine .call (.rename _ _) fun fault => ?_
          cases fault with
          | some fault => exact like_abandon S p _
          | none => exact like_installScript S p true

/-! ## The log -/

namespace Store

variable (s : Store)

/-- The handle is the same, be the log there already or opened now. -/
theorem openHandle_like (h : Like S d d') :
    LikeAfter S (s.openHandle d) (s.openHandle d') := by
  obtain ⟨hfault, hmade⟩ := like_makeFolder h
  unfold openHandle
  cases s.handle with
  | some n => exact ⟨rfl, h⟩
  | none =>
    revert hfault hmade
    unfold Script.after Call.perform
    dsimp only
    rcases d.makeFolder with f | e <;> rcases d'.makeFolder with f' | e' <;>
      dsimp only <;> intro hfault hmade <;> cases hfault
    · exact ⟨rfl, h⟩
    · rcases hmade.openFile s.place.name with ⟨f, hf, hf'⟩ | ⟨n, o, o', ho, ho', hopened⟩
      · rw [hf, hf']
        exact ⟨rfl, hmade⟩
      · rw [ho, ho']
        exact ⟨rfl, hopened⟩

theorem compact_like {told : Entry → Prop} (hS : Tolerant told S) (h : Like S d d')
    {es fs : List Entry} (hes : ∀ e ∈ es, told e) (hfs : Rearranged Entry.Apart es fs) :
    (s.compact d' fs).1 = (s.compact d es).1 ∧
      LikeAfter S (s.compact d es).2 (s.compact d' fs).2 := by
  have hb : S (logBytes es) (logBytes fs) := hS.append hS.nil hes hfs
  obtain ⟨hresult, hrun⟩ := (like_compactionScript s.place hb).run hS.nil h
  rw [compact, compact]
  exact ⟨hresult, rfl, hrun⟩

end Store

end Log

def Disk.Finished (d : Disk) : Prop :=
  ∀ bytes ∈ d.files, Log.Finished bytes

instance (d : Disk) : Decidable d.Finished :=
  List.decidableBAll _ _

theorem Disk.Finished.like {d : Disk} (h : d.Finished) : Like Log.SameEntries d d := by
  refine ⟨rfl, rfl, fun n => Log.sameEntries_self ?_⟩
  rw [contents, List.getD_eq_getElem?_getD]
  cases hn : d.files[n]? with
  | none => exact Log.finished_nil
  | some bytes => exact h bytes (List.mem_of_getElem? hn)

end ConfigDaemon
