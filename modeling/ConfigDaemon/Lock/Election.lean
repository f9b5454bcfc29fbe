import ConfigDaemon.Disk
import ConfigDaemon.Failure
import ConfigDaemon.Path
import ConfigDaemon.Text.Utf8

/-! # Election over a lock directory

Whoever holds the advisory lock on the address file owns the directory. A lock belongs to one
opening of a file and stays with the file when its name goes. An owner writes and locks a file
under a temporary name before it links the file to its place, so the address file is never seen
without its record and its lock. A temporary name is made up and not looked for. It goes in the end,
also when it turns out to be that of another file.
-/

namespace ConfigDaemon.Lock

open Text

/-- The lock directory and the owner's process. -/
structure Place where
  folder : String
  pid : UInt32
  deriving DecidableEq, Repr

/-- When a temporary name is made up, and its number in the process. -/
structure Stamp where
  nanoseconds : Nat
  number : Nat
  deriving DecidableEq, Repr

/-- The one that follows at the same time. -/
def Stamp.next (t : Stamp) : Stamp :=
  { t with number := t.number + 1 }

def addressFile : String := "ior"

namespace Place

def path (p : Place) (name : String) : String :=
  Path.join p.folder name

def addressPath (p : Place) : String :=
  p.path addressFile

def temporary (p : Place) (t : Stamp) : String :=
  .ofList (decimal p.pid.toNat ++ '-' :: Nat.toDigits 16 t.nanoseconds ++ '-' :: decimal t.number)

end Place

/-- An opening of a file. -/
structure Opening where
  file : Nat
  number : Nat
  deriving DecidableEq, Repr

/-- A disk with the advisory locks on its files. -/
structure World where
  disk : Disk
  locks : List Opening
  nextOpening : Nat
  deriving DecidableEq

namespace World

def ofDisk (d : Disk) : World := ⟨d, [], 0⟩

/-- A stamp of a process for which the clock stands still. -/
def stamp (w : World) : Stamp := ⟨0, w.nextOpening⟩

/-- Opens a file, without locking it. -/
def openNew (w : World) (file : Nat) : Opening × World :=
  (⟨file, w.nextOpening⟩, { w with nextOpening := w.nextOpening + 1 })

def lockedByOther (w : World) (o : Opening) : Bool :=
  w.locks.any fun l => l.file = o.file ∧ l.number ≠ o.number

/-- Takes the lock on a file, unless another opening has it. -/
def tryLock (w : World) (o : Opening) : Option World :=
  if w.lockedByOther o then none
  else if o ∈ w.locks then some w
  else some { w with locks := w.locks ++ [o] }

def close (w : World) (o : Opening) : World :=
  { w with locks := w.locks.filter (· ≠ o) }

def withDisk (w : World) (d : Disk) : World :=
  { w with disk := d }

/-- Takes a name off the disk, if that is possible. -/
def drop (w : World) (name : String) : World :=
  w.withDisk ((w.disk.unlink name).toOption.getD w.disk)

end World

/-- Who owns the directory, as far as its address file tells. -/
def currentHolder (p : Place) (d : Disk) : Except Failure Holder :=
  match d.readText addressFile with
  | .ok contents => .ok (.ofContents contents)
  | .error .notFound => .ok .absent
  | .error f =>
    .error (.lockFailed p.addressPath "address file not opened successfully" (some f.message))

def heldFailure (p : Place) (d : Disk) : Failure :=
  .lockHeld p.addressPath ((currentHolder p d).toOption.getD .absent)

/-- Links a new, locked file with a record to the address file's place. There is no opening when
something is there already. -/
def createLocked (p : Place) (t : Stamp) (w : World) (record : Bytes) :
    Except Failure (Option Opening) × World :=
  let name := p.temporary t
  match w.disk.createFile name with
  | .error f =>
    (.error (.lockFailed (p.path name) "could not create temporary file" (some f.message)),
      w.drop name)
  | .ok (file, disk) =>
    let (o, w) := (w.withDisk disk).openNew file
    match w.tryLock o with
    | none =>
      (.error (.lockFailed (p.path name) "temporary file is locked by someone else" none),
        w.drop name)
    | some w =>
      let w := w.withDisk (w.disk.append file record)
      match w.disk.link name addressFile with
      | .ok disk => (.ok (some o), (w.withDisk disk).drop name)
      | .error .exists => (.ok none, (w.drop name).close o)
      | .error f =>
        (.error (.lockFailed p.addressPath "could not create address file" (some f.message)),
          (w.drop name).close o)

/-- Removes an address file that nobody has locked. -/
def clearStale (p : Place) (w : World) : Except Failure World :=
  let closed (f : Fault) : Failure :=
    .lockFailed p.addressPath "failed to create or open" (some f.message)
  match w.disk.find addressFile with
  | .error .notFound => .ok w
  | .error f => .error (closed f)
  | .ok (.folder _) => .error (closed .isFolder)
  | .ok (.file file) =>
    let (o, w) := w.openNew file
    match w.tryLock o with
    | none => .error (heldFailure p w.disk)
    | some w => .ok ((w.drop addressFile).close o)

/-- Becomes the owner of the directory and publishes an address, or none. A stale address file
is cleared away once, and then there is a second attempt under a second name. -/
def acquire (p : Place) (first second : Stamp) (w : World) (address : Option String) :
    Except Failure Opening × World :=
  match w.disk.makeFolder with
  | .error f => (.error (.lockFailed p.folder "couldn't create directory" (some f.message)), w)
  | .ok disk =>
    let record := Utf8.encode (Holder.record p.pid address)
    match createLocked p first (w.withDisk disk) record with
    | (.error f, w) => (.error f, w)
    | (.ok (some o), w) => (.ok o, w)
    | (.ok none, w) =>
      match clearStale p w with
      | .error f => (.error f, w)
      | .ok w =>
        match createLocked p second w record with
        | (.error f, w) => (.error f, w)
        | (.ok (some o), w) => (.ok o, w)
        | (.ok none, w) => (.error (heldFailure p w.disk), w)

/-- Gives the directory up and removes it. A second name keeps the file until its last opening
is closed. -/
def release (p : Place) (t : Stamp) (w : World) (o : Opening) : Except Failure Unit × World :=
  if w.lockedByOther o then (.error (.lockNotHeld p.addressPath), w.close o)
  else
    let name := p.temporary t
    match w.disk.link addressFile name with
    | .error f =>
      (.error (.failed ("failed to link '" ++ p.path name ++ "' to '" ++ p.addressPath ++ "': " ++
        f.message)), (w.drop name).close o)
    | .ok disk =>
      match disk.unlink addressFile with
      | .error f =>
        (.error (.failed ("failed to remove lock file '" ++ p.addressPath ++ "': " ++ f.message)),
          ((w.withDisk disk).drop name).close o)
      | .ok disk =>
        let w := (w.withDisk disk).close o
        match w.disk.unlink name with
        | .error f => (.error (.failed ("failed to clean up lock link: " ++ f.message)), w)
        | .ok disk => (.ok (), w.withDisk ((disk.removeFolder.toOption).getD disk))

end ConfigDaemon.Lock
