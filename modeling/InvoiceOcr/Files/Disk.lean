/-
  File:      InvoiceOcr/Files/Disk.lean
  Subject:   THE CALLS OF A SCRIPT: files, a subprocess, the console and the clock. Nothing here names
             a program.

  * `Disk` -- the files and the directories;
  * `Call`, `Reply` -- what a script calls. To write a text is to open the file, which empties it, and
    then to write: each may fail;
  * `Performs` -- what a call may be answered and leave. A call that fails leaves the disk as it was, but
    for what it was writing; a subprocess leaves the `kept` files alone;
  * **`files_of_exec`** -- a kept file that no call touches is unchanged.
-/
import InvoiceOcr.Async.Monitor

namespace Files

open Async

/-- A path, by its parts. -/
abbrev Path := List (List Char)

structure Disk where
  files : Path → Option (List Char)
  dirs : Path → Bool

/-! ## 1. The disk -/

/-- `path.exists()`. -/
def Disk.has (d : Disk) (p : Path) : Bool := (d.files p).isSome || d.dirs p

def Disk.put (d : Disk) (p : Path) (text : List Char) : Disk :=
  { d with files := fun q => if q = p then some text else d.files q }

/-- `path.mkdir(parents=True, exist_ok=True)`. -/
def Disk.makeDir (d : Disk) (p : Path) : Disk :=
  { d with dirs := fun q => q.isPrefixOf p || d.dirs q }

@[simp] theorem files_put_self (d : Disk) (p : Path) (text : List Char) :
    (d.put p text).files p = some text := if_pos rfl

theorem files_put_ne (d : Disk) {p q : Path} (h : q ≠ p) (text : List Char) :
    (d.put p text).files q = d.files q := if_neg h

@[simp] theorem files_makeDir (d : Disk) (p : Path) : (d.makeDir p).files = d.files := rfl

/-! ## 2. Calls -/

inductive Call where
  | stat (p : Path)
  | mkdir (p : Path)
  | readText (p : Path)
  | openWrite (p : Path)
  | openAppend (p : Path)
  | write (p : Path) (text : List Char)
  | copy (src dst : Path)
  | glob (dir : Path) (pattern : List Char)
  | subprocess (cmd : List (List Char))
  | input
  | now

abbrev Reply : Call → Type
  | .stat _ => Bool
  | .readText _ => List Char
  | .glob _ _ => List Path
  | .input => List Char
  | .now => List Char
  | _ => Unit

/-- The file the call writes. -/
def Call.touches : Call → Path → Prop
  | .openWrite p, q => q = p
  | .openAppend p, q => q = p
  | .write p _, q => q = p
  | .copy _ dst, q => q = dst
  | _, _ => False

/-- The call runs no other program. -/
def Call.isOwn : Call → Bool
  | .subprocess _ => false
  | _ => true

section Semantics

variable {ε : Type} (kept : Path → Prop)

/-- The kept files are as they were. -/
def Spared (d d' : Disk) : Prop := ∀ p, kept p → d'.files p = d.files p

/-- **What a call may be answered, and the disk it leaves.** -/
inductive Performs : Disk → (o : Call) → Except ε (Reply o) → Disk → Prop where
  | stat (d : Disk) (p : Path) : Performs d (.stat p) (.ok (d.has p)) d
  | mkdir (d : Disk) (p : Path) : Performs d (.mkdir p) (.ok ()) (d.makeDir p)
  | readText {d : Disk} {p : Path} {text : List Char} (h : d.files p = some text) :
      Performs d (.readText p) (.ok text) d
  | openWrite {d : Disk} {p : Path} (h : d.dirs p.dropLast = true) :
      Performs d (.openWrite p) (.ok ()) (d.put p [])
  | openAppend {d : Disk} {p : Path} (h : d.dirs p.dropLast = true) :
      Performs d (.openAppend p) (.ok ()) (d.put p ((d.files p).getD []))
  | write (d : Disk) (p : Path) (text : List Char) :
      Performs d (.write p text) (.ok ()) (d.put p ((d.files p).getD [] ++ text))
  | copy {d : Disk} {src dst : Path} {text : List Char} (hsrc : d.files src = some text)
      (hdst : d.dirs dst.dropLast = true) : Performs d (.copy src dst) (.ok ()) (d.put dst text)
  | glob {d : Disk} {dir : Path} (pattern : List Char) {ps : List Path}
      (h : ∀ p ∈ ps, p.dropLast = dir ∧ (d.files p).isSome = true) :
      Performs d (.glob dir pattern) (.ok ps) d
  | subprocess {d d' : Disk} (cmd : List (List Char)) (h : Spared kept d d') :
      Performs d (.subprocess cmd) (.ok ()) d'
  | input (d : Disk) (answer : List Char) : Performs d .input (.ok answer) d
  | now (d : Disk) (time : List Char) : Performs d .now (.ok time) d
  | failed (d : Disk) (o : Call) (e : ε) : Performs d o (.error e) d
  | halfMade {d d' : Disk} (p : Path) (e : ε) (h : d'.files = d.files) :
      Performs d (.mkdir p) (.error e) d'
  | halfWritten (d : Disk) (p : Path) {text part : List Char} (e : ε) (h : part <+: text) :
      Performs d (.write p text) (.error e) (d.put p ((d.files p).getD [] ++ part))
  | halfCopied {d : Disk} (src : Path) {dst : Path} (part : List Char) (e : ε)
      (h : d.dirs dst.dropLast = true) : Performs d (.copy src dst) (.error e) (d.put dst part)
  | halfRun {d d' : Disk} (cmd : List (List Char)) (e : ε) (h : Spared kept d d') :
      Performs d (.subprocess cmd) (.error e) d'

variable {kept} {d d' : Disk} {p : Path}

/-! ## 3. What is left alone -/

/-- STEP: a kept file that the call does not touch. -/
theorem files_of_answer {o : Call} {r : Except ε (Reply o)} (h : Performs kept d o r d') (hp : kept p)
    (htouches : ¬ o.touches p) : d'.files p = d.files p := by
  cases h with
  | openWrite => exact files_put_ne _ htouches _
  | openAppend => exact files_put_ne _ htouches _
  | write => exact files_put_ne _ htouches _
  | copy => exact files_put_ne _ htouches _
  | subprocess _ h => exact h p hp
  | halfMade _ _ h => rw [h]
  | halfWritten => exact files_put_ne _ htouches _
  | halfCopied => exact files_put_ne _ htouches _
  | halfRun _ _ h => exact h p hp
  | _ => rfl

/-- RUN: **a kept file that no call touches is unchanged.** -/
theorem files_of_exec {α : Type} {body : Proc Call Reply ε α} {es : List (Event Call Reply ε)}
    {x : Except ε α} (h : Exec (Performs kept) body d es x d') (hp : kept p)
    (htouches : ∀ ev ∈ es, ¬ ev.op.touches p) : d'.files p = d.files p := by
  induction h with
  | ret => rfl
  | raise => rfl
  | call h _ ih =>
    obtain ⟨hfirst, hrest⟩ := List.forall_mem_cons.mp htouches
    rw [ih hrest, files_of_answer h hp hfirst]

end Semantics

end Files
