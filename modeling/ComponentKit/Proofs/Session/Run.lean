import ComponentKit.Proofs.Session.Spec
import ComponentKit.Proofs.Text.FileLines
import ComponentKit.Proofs.Text.Utf8

/-!
# Runs that end with a value

What a step does to a whole session, its counters included, when it ends with a value: each operation has an
equation that says when it does so and in which session. The equations read both ways, so that a run is taken apart
by them as well as put together. Reports come between all other steps; they never fail and only tell something
(`OnlyReports`), so that what follows them starts from the same files and counters.
-/

namespace ComponentKit

open Disk

/-! ## Sessions after a step -/

namespace Session

variable {session middle after : Session} {path : Path} {name text new : Text} {bytes : Bytes}

/-- Whether `readText` reads the file at a path as a text. -/
def Reads (session : Session) (path : Path) (text : Text) : Prop :=
  ∃ bytes raw, session.disk.readFile session.home path = .ok bytes ∧ Utf8.decode bytes = .ok raw ∧
    Text.unifyLineBreaks raw = text

/-- Whether the device accepts the next `writeText`. -/
def AcceptsWrite (session : Session) : Prop :=
  session.outage.write (session.writes + 1) = false

/-- Whether the device accepts the next writes, as many as are counted. -/
def AcceptsWrites (session : Session) (count : Nat) : Prop :=
  ∀ n < count, session.outage.write (session.writes + 1 + n) = false

/-- Whether a session went on with nothing but messages. -/
def Told (session after : Session) : Prop :=
  ∃ messages screen, after = { session with messages, screen }

/-- Whether a session went on with one write over a file, apart from messages. -/
def Wrote (session : Session) (path : Path) (new : Text) (after : Session) : Prop :=
  ∃ disk, session.disk.writeFile session.home path (Utf8.encode new) = .ok disk ∧
    Told { session with disk, writes := session.writes + 1 } after

theorem Told.refl (session : Session) : session.Told session :=
  ⟨session.messages, session.screen, rfl⟩

theorem Told.trans (h : session.Told middle) (h' : middle.Told after) : session.Told after := by
  obtain ⟨messages, screen, rfl⟩ := h
  obtain ⟨more, shown, rfl⟩ := h'
  exact ⟨more, shown, rfl⟩

theorem Reads.isFile (h : session.Reads path text) :
    session.disk.isFile session.home path = .ok true := by
  obtain ⟨bytes, raw, hread, -⟩ := h
  obtain ⟨place, hplace, hfile⟩ := readFile_eq_ok.mp hread
  exact isFile_eq_ok_true.mpr ⟨place, bytes, hplace, hfile⟩

/-- What is read has no carriage returns. -/
theorem Reads.return_notMem (h : session.Reads path text) : '\r' ∉ text := by
  obtain ⟨bytes, raw, -, -, rfl⟩ := h
  exact Text.return_notMem_unifyLineBreaks raw

theorem Told.disk (h : session.Told after) : after.disk = session.disk := by
  obtain ⟨messages, screen, rfl⟩ := h
  rfl

theorem Told.acceptsWrite_iff (h : session.Told after) : after.AcceptsWrite ↔ session.AcceptsWrite := by
  obtain ⟨messages, screen, rfl⟩ := h
  rfl

/-- A write after messages is a write. -/
theorem Told.wrote (h : session.Told middle) (hwrote : middle.Wrote path new after) :
    session.Wrote path new after := by
  obtain ⟨messages, screen, rfl⟩ := h
  obtain ⟨disk, hwrite, more, shown, rfl⟩ := hwrote
  exact ⟨disk, hwrite, more, shown, rfl⟩

/-- Messages leave every file as it is. -/
theorem Told.reads (h : session.Told after) (hreads : session.Reads path text) :
    after.Reads path text := by
  obtain ⟨messages, screen, rfl⟩ := h
  exact hreads

/-- A file that was written over has the bytes that were written. -/
theorem Wrote.readFile (h : session.Wrote path new after) (hreads : session.Reads path text) :
    after.disk.readFile after.home path = .ok (Utf8.encode new) := by
  obtain ⟨disk, hwrite, messages, screen, rfl⟩ := h
  obtain ⟨bytes, -, hread, -⟩ := hreads
  obtain ⟨changed, hwritten, hfile⟩ := writeFile_of_readFile hread (Utf8.encode new)
  obtain rfl := Except.ok.inj (hwritten.symm.trans hwrite)
  exact hfile

/-- It is read as the text that was written, if that has no carriage returns. -/
theorem Wrote.reads (h : session.Wrote path new after) (hreads : session.Reads path text)
    (hnew : '\r' ∉ new) : after.Reads path new :=
  ⟨_, new, h.readFile hreads, Utf8.decode_encode new, Text.unifyLineBreaks_of_notMem hnew⟩

theorem Wrote.home (h : session.Wrote path new after) : after.home = session.home := by
  obtain ⟨disk, -, messages, screen, rfl⟩ := h
  rfl

theorem Wrote.writes (h : session.Wrote path new after) : after.writes = session.writes + 1 := by
  obtain ⟨disk, -, messages, screen, rfl⟩ := h
  rfl

theorem AcceptsWrites.first {count : Nat} (h : session.AcceptsWrites (count + 1)) : session.AcceptsWrite :=
  h 0 (Nat.succ_pos count)

theorem Wrote.acceptsWrites {count : Nat} (h : session.Wrote path new after)
    (haccepts : session.AcceptsWrites (count + 1)) : after.AcceptsWrites count := by
  obtain ⟨disk, -, messages, screen, rfl⟩ := h
  intro n hn
  have hnext := haccepts (n + 1) (by omega)
  rwa [show session.writes + 1 + (n + 1) = session.writes + 1 + 1 + n by omega] at hnext

/-- A text with more line feeds than was read needs other bytes than were read. -/
theorem Wrote.readFile_ne (h : session.Wrote path new after) (hreads : session.Reads path text)
    (hcount : text.count '\n' < new.count '\n') :
    after.disk.readFile after.home path ≠ session.disk.readFile session.home path := by
  rw [h.readFile hreads]
  obtain ⟨bytes, raw, hread, hdecode, rfl⟩ := hreads
  rw [hread]
  intro hsame
  obtain rfl := Except.ok.inj hsame
  obtain rfl := Except.ok.inj (hdecode.symm.trans (Utf8.decode_encode new))
  exact absurd (Text.count_le_count_unifyLineBreaks raw) (by omega)

end Session

namespace Step

variable {ε ε' α β : Type} {step : Step ε α} {next : α → Step ε β} {session middle after : Session}
  {value other : α} {result : β} {path : Path} {name text new : Text}

/-! ## Rules -/

/-- A sequence ends with a value if both steps do, the second from where the first ended. -/
theorem run_bind_eq_ok : (step >>= next).run session = (.ok result, after) ↔
    ∃ value middle, step.run session = (.ok value, middle) ∧
      (next value).run middle = (.ok result, after) := by
  rw [run_bind]
  rcases step.run session with ⟨_ | value, middle⟩ <;> simp

theorem run_bind_of_ok (h : step.run session = (.ok value, middle)) :
    (step >>= next).run session = (next value).run middle := by
  rw [run_bind, h]

theorem run_get_bind {next : Session → Step ε α} :
    (get >>= next).run session = (next session).run session :=
  rfl

theorem run_modify_bind {f : Session → Session} {next : Unit → Step ε α} :
    (modify f >>= next).run session = (next ()).run (f session) :=
  rfl

theorem run_pure_eq_ok : (pure value : Step ε α).run session = (.ok other, after) ↔
    value = other ∧ session = after := by
  show ((Except.ok value : Except ε α), session) = (.ok other, after) ↔ _
  simp

theorem run_ofResult_eq_ok {given : Except ε α} :
    (ofResult given).run session = (.ok value, after) ↔ given = .ok value ∧ session = after := by
  show (given, session) = (.ok value, after) ↔ _
  simp

theorem run_mapFailure_eq_ok {f : ε → ε'} :
    (step.mapFailure f).run session = (.ok value, after) ↔ step.run session = (.ok value, after) := by
  rw [run_mapFailure, Prod.mk.injEq, mapError_eq_ok, ← Prod.mk.injEq]

/-! ## Reports -/

/-- Whether a step cannot fail and does no more than `report`. -/
def OnlyReports (step : Step ε Unit) : Prop :=
  ∀ session : Session, ∃ after, step.run session = (.ok (), after) ∧ session.Told after

theorem onlyReports_pure : OnlyReports (pure () : Step ε Unit) :=
  fun session => ⟨session, rfl, .refl session⟩

theorem OnlyReports.bind {first second : Step ε Unit} (hfirst : OnlyReports first)
    (hsecond : OnlyReports second) : OnlyReports (first >>= fun _ => second) := by
  intro session
  obtain ⟨middle, hrun, htold⟩ := hfirst session
  obtain ⟨after, hmore, htold'⟩ := hsecond middle
  exact ⟨after, (run_bind_of_ok hrun).trans hmore, htold.trans htold'⟩

/-- Every message can be shown. -/
theorem onlyReports_report (level : Level) (text : Text) : OnlyReports (report level text) := by
  intro session
  obtain ⟨shown, hshown⟩ := Message.exists_printed ⟨level, text⟩ session.verbose
  refine ⟨{ session with
    messages := session.messages ++ [⟨level, text⟩], screen := session.screen ++ shown }, ?_, _, _, rfl⟩
  rw [report, run_modify_bind, run_get_bind, hshown]
  rfl

theorem onlyReports_forM {items : List α} {tell : α → Step ε Unit} (h : ∀ item, OnlyReports (tell item)) :
    OnlyReports (items.forM tell) := by
  induction items with
  | nil => exact onlyReports_pure
  | cons item items ih => exact (h item).bind ih

/-- A value that is returned after a report. -/
theorem OnlyReports.run_return {tell : Step ε Unit} (h : OnlyReports tell) (value : α)
    (session : Session) : ∃ after,
      (do tell; return value : Step ε α).run session = (.ok value, after) ∧ session.Told after := by
  obtain ⟨after, hrun, htold⟩ := h session
  exact ⟨after, run_bind_of_ok hrun, htold⟩

/-! ## Operations on files -/

theorem run_inspect_eq_ok {look : Disk → Location → Except Fault α} :
    (inspect look).run session = (.ok value, after) ↔
      look session.disk session.home = .ok value ∧ session = after := by
  show ((look session.disk session.home).mapError Failure.access, session) = (.ok value, after) ↔ _
  rw [Prod.mk.injEq, mapError_eq_ok]

/-- What is read as a text is there as a file. -/
theorem run_isFile_of_reads (h : session.Reads path text) :
    (isFile path).run session = (.ok true, session) :=
  run_inspect_eq_ok.mpr ⟨h.isFile, rfl⟩

theorem run_readText_eq_ok : (readText path).run session = (.ok text, after) ↔
    session.Reads path text ∧ session = after := by
  rw [readText, run_bind_eq_ok]
  constructor
  · rintro ⟨bytes, middle, hbytes, hrest⟩
    obtain ⟨hread, rfl⟩ := run_inspect_eq_ok.mp hbytes
    obtain ⟨raw, last, hraw, hpure⟩ := run_bind_eq_ok.mp hrest
    obtain ⟨hdecode, rfl⟩ := run_ofResult_eq_ok.mp hraw
    obtain ⟨htext, rfl⟩ := run_pure_eq_ok.mp hpure
    exact ⟨⟨bytes, raw, hread, mapError_eq_ok.mp hdecode, htext⟩, rfl⟩
  · rintro ⟨⟨bytes, raw, hread, hdecode, rfl⟩, rfl⟩
    exact ⟨bytes, session, run_inspect_eq_ok.mpr ⟨hread, rfl⟩, run_bind_eq_ok.mpr ⟨raw, session,
      run_ofResult_eq_ok.mpr ⟨mapError_eq_ok.mpr hdecode, rfl⟩, rfl⟩⟩

theorem run_makeDirectories (path : Path) (session : Session) : (makeDirectories path).run session
    = ((session.disk.makeDirectories session.home path).1.mapError .access,
      { session with disk := (session.disk.makeDirectories session.home path).2 }) :=
  rfl

theorem run_change_of_ok {act : Disk → Location → Except Fault Disk} {disk : Disk}
    (h : act session.disk session.home = .ok disk) :
    (change act).run session = (.ok (), { session with disk }) := by
  rw [change, run_bind_eq_ok]
  exact ⟨disk, session, run_inspect_eq_ok.mpr ⟨h, rfl⟩, rfl⟩

/-- A write that the device refuses is counted, and does nothing else. -/
theorem run_writeText_refused (h : ¬ session.AcceptsWrite) (path : Path) (new : Text) :
    (writeText path new).run session
      = (.error (.outage .write (session.writes + 1)), { session with writes := session.writes + 1 }) := by
  rw [writeText, run_modify_bind, run_get_bind, if_pos (by simpa [Session.AcceptsWrite] using h)]
  rfl

/-- A write over a file that is there is done unless the device refuses it. -/
theorem run_writeText_there (hreads : session.Reads (path.child name) text)
    (haccepts : session.AcceptsWrite) (new : Text) : ∃ after,
      (writeText (path.child name) new).run session = (.ok (), after) ∧
      session.Wrote (path.child name) new after := by
  obtain ⟨bytes, -, hread, -⟩ := hreads
  obtain ⟨disk, hwrite, -⟩ := writeFile_of_readFile hread (Utf8.encode new)
  have hmade : (makeDirectories (path.child name).parent).run
      { session with writes := session.writes + 1 }
        = (.ok (), { session with writes := session.writes + 1 }) := by
    rw [Path.parent_child, run_makeDirectories, makeDirectories_of_readFile hread]
    rfl
  rw [writeText, run_modify_bind, run_get_bind, if_neg (by simpa [Session.AcceptsWrite] using haccepts)]
  exact ⟨_, (run_bind_of_ok hmade).trans (run_change_of_ok hwrite), disk, hwrite, .refl _⟩

end Step

end ComponentKit
