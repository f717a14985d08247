import AnkerUpdater.Lib.EventLog

/-!
# Logs of an upload session

A program stores an image through four calls: it begins a session, writes
pieces, finishes the session and activates the image.  The log keeps every
call with its outcome, oldest first.  Only a successful begin opens a
session, and finishing closes it whatever the outcome.
-/

namespace UploadLog

open EventLog

variable {β : Type*}

inductive Call (β : Type*) where
  | begin (ok : Bool)
  | write (bytes : List β) (ok : Bool)
  | finish (ok : Bool)
  | activate (ok : Bool)
  deriving DecidableEq, Repr

def step (written : List β) : Call β → List β
  | .begin _ => []
  | .write bytes true => written ++ bytes
  | _ => written

/-- The bytes written since the last begin; a failed write stores nothing. -/
def written (log : List (Call β)) : List β := log.foldl step []

def pieceStep (pieces : List (List β)) : Call β → List (List β)
  | .begin _ => []
  | .write bytes true => pieces ++ [bytes]
  | _ => pieces

/-- The successful writes since the last begin, one by one. -/
def pieces (log : List (Call β)) : List (List β) := log.foldl pieceStep []

def openStep (isOpen : Bool) : Call β → Bool
  | .begin true => true
  | .finish _ => false
  | _ => isOpen

/-- Whether the session of the last successful begin still takes writes. -/
def isOpen (log : List (Call β)) : Bool := log.foldl openStep false

@[simp] theorem written_nil : written ([] : List (Call β)) = [] := rfl

@[simp] theorem isOpen_nil : isOpen ([] : List (Call β)) = false := rfl

@[simp] theorem written_begin (log : List (Call β)) (ok : Bool) :
    written (log ++ [.begin ok]) = [] := by
  simp [written, step]

@[simp] theorem written_write_true (log : List (Call β)) (bytes : List β) :
    written (log ++ [.write bytes true]) = written log ++ bytes := by
  simp [written, step]

@[simp] theorem written_write_false (log : List (Call β)) (bytes : List β) :
    written (log ++ [.write bytes false]) = written log := by
  simp [written, step]

@[simp] theorem written_finish (log : List (Call β)) (ok : Bool) :
    written (log ++ [.finish ok]) = written log := by
  simp [written, step]

@[simp] theorem written_activate (log : List (Call β)) (ok : Bool) :
    written (log ++ [.activate ok]) = written log := by
  simp [written, step]

@[simp] theorem pieces_nil : pieces ([] : List (Call β)) = [] := rfl

@[simp] theorem pieces_begin (log : List (Call β)) (ok : Bool) :
    pieces (log ++ [.begin ok]) = [] := by
  simp [pieces, pieceStep]

@[simp] theorem pieces_write_true (log : List (Call β)) (bytes : List β) :
    pieces (log ++ [.write bytes true]) = pieces log ++ [bytes] := by
  simp [pieces, pieceStep]

@[simp] theorem pieces_write_false (log : List (Call β)) (bytes : List β) :
    pieces (log ++ [.write bytes false]) = pieces log := by
  simp [pieces, pieceStep]

@[simp] theorem pieces_finish (log : List (Call β)) (ok : Bool) :
    pieces (log ++ [.finish ok]) = pieces log := by
  simp [pieces, pieceStep]

@[simp] theorem pieces_activate (log : List (Call β)) (ok : Bool) :
    pieces (log ++ [.activate ok]) = pieces log := by
  simp [pieces, pieceStep]

@[simp] theorem isOpen_begin_true (log : List (Call β)) :
    isOpen (log ++ [.begin true]) = true := by
  simp [isOpen, openStep]

@[simp] theorem isOpen_begin_false (log : List (Call β)) :
    isOpen (log ++ [.begin false]) = isOpen log := by
  simp [isOpen, openStep]

@[simp] theorem isOpen_write (log : List (Call β)) (bytes : List β) (ok : Bool) :
    isOpen (log ++ [.write bytes ok]) = isOpen log := by
  simp [isOpen, openStep]

@[simp] theorem isOpen_finish (log : List (Call β)) (ok : Bool) :
    isOpen (log ++ [.finish ok]) = false := by
  simp [isOpen, openStep]

@[simp] theorem isOpen_activate (log : List (Call β)) (ok : Bool) :
    isOpen (log ++ [.activate ok]) = isOpen log := by
  simp [isOpen, openStep]

/-- Whenever the log activates an image, the bytes written since the last
begin are exactly `image`. -/
def ActivatesOnly (image : List β) : List (Call β) → Prop :=
  EachAt fun pre c ↦ ∀ ok, c = .activate ok → written pre = image

theorem activatesOnly_nil (image : List β) : ActivatesOnly image [] := eachAt_nil

theorem ActivatesOnly.append {image : List β} {log : List (Call β)} {c : Call β}
    (h : ActivatesOnly image log) (hc : ∀ ok, c ≠ .activate ok) :
    ActivatesOnly image (log ++ [c]) :=
  eachAt_append_singleton.mpr ⟨h, fun ok hok ↦ absurd hok (hc ok)⟩

theorem ActivatesOnly.activate {image : List β} {log : List (Call β)} (ok : Bool)
    (h : ActivatesOnly image log) (hw : written log = image) :
    ActivatesOnly image (log ++ [.activate ok]) :=
  eachAt_append_singleton.mpr ⟨h, fun _ _ ↦ hw⟩

end UploadLog
