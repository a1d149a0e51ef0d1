import Sshdt.DevTunnel.LogFiles
import Sshdt.Lib.Machine

/-
  Following a tunnel log (`show` in
  `src/devtunnel/logs.rs`).

  At every poll the reader prints what the newest file of
  the role has beyond the place where the last poll stopped.
  It keeps that place for one file only, so what was
  appended to a file after the last poll is not printed once
  the file of a later day is there.

  A run interleaves appends, whose days do not go back, with
  the polls of one reader. `due` is what the reader should
  have printed: the newest file as it was at the first poll
  and every byte appended since.

  Key definitions include:
    * `Calendar`
    * `Log.poll`
    * `FollowRun`
    * `FollowRun.Caught`
    * `FollowRun.Inv`

  Key theorems include:
    * `Log.Daily.append`
    * `FollowRun.append_inv`
    * `FollowRun.poll_inv`
    * `FollowRun.follow_prints_due`
-/

------------------------------------------------------------
-- Polling The Newest File
------------------------------------------------------------

namespace Sshdt

namespace DevTunnel

/-
  The date of a day since 1970 as the time crate writes it.
  The dates have one width and sort as the days do; there is
  none beyond the last day of the calendar.
-/
structure Calendar where
  date : Nat → Option Text
  width :
    ∀ {day text}, date day = some text → text.length = 10
  increasing :
    ∀ {day later text text'}, day < later →
      date day = some text → date later = some text' →
        text < text'

/- What `show` keeps between two polls, and what it printed. -/
structure Follow (N : Type) where
  current : Option N
  offset : Nat
  printed : List UInt8

/- The start of `show`: no path, the empty path, is open. -/
def Follow.init {N : Type} : Follow N where
  current := none
  offset := 0
  printed := []

namespace Log

variable {N : Type}
variable [LinearOrder N]

/- The last log file of a role. -/
def newest
    (names : FileNames N)
    (role : LogRole)
    (logs : LogDir N) : Option N :=
  (files names role logs).getLast?

/- What is printed when there is no log. -/
def noLogs
    (role : LogRole) : Text :=
  "No Dev Tunnel ".toList ++ role.asStr ++
    " logs found.\n".toList

/- One turn of the loop of `show`, or none if a call fails. -/
def poll
    (names : FileNames N)
    (role : LogRole)
    (follow : Bool)
    (logs : LogDir N)
    (reader : Follow N) : Option (Follow N) :=
  match newest names role logs with
  | none =>
      if follow then
        some reader
      else
        some { reader with
          printed := reader.printed ++ (noLogs role).asBytes }
  | some path =>
      let offset :=
        if reader.current = some path then
          reader.offset
        else
          0
      match logs.get path with
      | some (.file bytes) =>
          let offset :=
            if bytes.length < offset then 0 else offset
          let data := bytes.drop offset
          some
            { current := some path
              offset := offset + data.length
              printed := reader.printed ++ data }
      | _ => none

end Log

end DevTunnel

end Sshdt

------------------------------------------------------------
-- Runs
------------------------------------------------------------

namespace Sshdt

namespace DevTunnel

variable {N : Type}
variable [LinearOrder N]

/- What happens while a log is followed. -/
inductive FollowEvent where
  | append (now : Nat) (command stream text : Text)
  | poll
  deriving DecidableEq, Repr

/-
  The directory, the day of the last append, the reader, and
  what it should have printed since its first poll.
-/
structure FollowRun (N : Type) [LinearOrder N] where
  logs : LogDir N
  day : Nat
  reader : Follow N
  due : Option (List UInt8)

namespace Log

/- The bytes of the newest file. -/
def newestBytes
    (names : FileNames N)
    (role : LogRole)
    (logs : LogDir N) : List UInt8 :=
  match newest names role logs with
  | none => []
  | some path => logs.content path

/- What the newest file has that the reader did not print. -/
def unread
    (names : FileNames N)
    (role : LogRole)
    (logs : LogDir N)
    (reader : Follow N) : List UInt8 :=
  match newest names role logs with
  | none => []
  | some path =>
      (logs.content path).drop
        (if reader.current = some path then
          reader.offset
        else
          0)

end Log

namespace FollowRun

section

variable (names : FileNames N)
variable (calendar : Calendar)
variable (role : LogRole)

/- An append that succeeds, on the last day or a later one. -/
def append
    (s : FollowRun N)
    (now : Nat)
    (command stream text : Text) :
    Option (FollowRun N) :=
  if s.day ≤ now / 86400 then
    match Log.append names calendar.date role now command
        stream text s.logs with
    | (.ok (), logs) =>
        some { s with
          logs
          day := now / 86400
          due := s.due.map fun bytes =>
            bytes ++ (record now command stream text).asBytes }
    | _ => none
  else
    none

/- A poll of the reader. -/
def poll
    (s : FollowRun N) :
    Option (FollowRun N) :=
  match Log.poll names role true s.logs s.reader with
  | none => none
  | some reader =>
      some { s with
        reader
        due := some
          (s.due.getD (Log.newestBytes names role s.logs)) }

def step
    (s : FollowRun N) :
    FollowEvent → Option (FollowRun N)
| .append now command stream text =>
    append names calendar role s now command stream text
| .poll => poll names role s

/- A reader that starts on a directory and a day. -/
def machine
    (logs : LogDir N)
    (day : Nat) :
    Machine (FollowRun N) FollowEvent where
  init :=
    { logs, day, reader := .init, due := none }
  step := step names calendar role

/-
  No poll was made, or the record goes to the file that is
  the newest, or the reader has printed the newest file.
-/
def Caught
    (s : FollowRun N) :
    FollowEvent → Prop
| .append now _ _ _ =>
    s.due = none ∨
      Log.newest names role s.logs =
        (calendar.date (now / 86400)).map
          (Log.fileName names role) ∨
      Log.unread names role s.logs s.reader = []
| .poll => True

instance decidableCaught
    (s : FollowRun N) :
    (event : FollowEvent) →
      Decidable (Caught names calendar role s event)
| .append _ _ _ _ => inferInstanceAs (Decidable (_ ∨ _ ∨ _))
| .poll => .isTrue trivial

end

end FollowRun

end DevTunnel

end Sshdt

------------------------------------------------------------
-- Daily Log Files
------------------------------------------------------------

namespace Sshdt

namespace DevTunnel

namespace Log

variable {N : Type}
variable [LinearOrder N]
variable {names : FileNames N}
variable {calendar : Calendar}
variable {role : LogRole}
variable {day now : Nat}
variable {command stream text today : Text}
variable {logs after : LogDir N}

/- The log files of a role are files of days up to this. -/
def Daily
    (names : FileNames N)
    (calendar : Calendar)
    (role : LogRole)
    (day : Nat)
    (logs : LogDir N) : Prop :=
  ∀ name ∈ files names role logs,
    (∃ d date, d ≤ day ∧ calendar.date d = some date ∧
      name = fileName names role date) ∧
    ∃ data, logs.get name = some (.file data)

/- Texts of one length keep their order before a text. -/
theorem append_lt_append
    {t u : Text}
    (rest : Text)
    (hLength : t.length = u.length)
    (hLt : t < u) :
    t ++ rest < u ++ rest := by
  induction hLt with
  | nil => simp at hLength
  | cons _ ih =>
      exact List.Lex.cons (ih (Nat.succ.inj hLength))
  | rel hChar => exact List.Lex.rel hChar

/- The files of later days sort above. -/
theorem fileName_lt
    {day later : Nat}
    {date date' : Text}
    (names : FileNames N)
    (role : LogRole)
    (hDay : day < later)
    (hDate : calendar.date day = some date)
    (hDate' : calendar.date later = some date') :
    fileName names role date < fileName names role date' := by
  have hLength : date.length = date'.length := by
    rw [calendar.width hDate, calendar.width hDate']
  apply names.ofText_lt
  rw [List.append_assoc, List.append_assoc _ date']
  apply List.append_left_lt
  exact append_lt_append _ hLength
    (calendar.increasing hDay hDate hDate')

theorem newest_eq_some_iff
    {name : N} :
    newest names role logs = some name ↔
      name ∈ files names role logs ∧
        ∀ other ∈ files names role logs, other ≤ name :=
  Retention.getLast?_eq_some_iff (files_lt names role logs)

/- No log file sorts above that of a day not yet over. -/
theorem Daily.le_fileName
    {name : N}
    (hDaily : Daily names calendar role day logs)
    (hDay : day ≤ now)
    (hDate : calendar.date now = some today)
    (hMem : name ∈ files names role logs) :
    name ≤ fileName names role today := by
  rcases hDaily name hMem with
    ⟨⟨d, date, hBefore, hPast, rfl⟩, _⟩
  rcases Nat.lt_or_eq_of_le (hBefore.trans hDay) with hLt | rfl
  · exact le_of_lt (fileName_lt names role hLt hPast hDate)
  · rw [hPast, Option.some.injEq] at hDate
    rw [hDate]

/-
  An append on the last day or a later one: the file of the
  day is the newest and has the record at its end.
-/
theorem Daily.append
    (hDaily : Daily names calendar role day logs)
    (hDay : day ≤ now / 86400)
    (hDate : calendar.date (now / 86400) = some today)
    (hAppend :
      append names calendar.date role now command stream text
        logs = (.ok (), after)) :
    Daily names calendar role (now / 86400) after ∧
      newest names role after =
        some (fileName names role today) ∧
      after.content (fileName names role today) =
        logs.content (fileName names role today) ++
          (record now command stream text).asBytes := by
  rcases append_ok hDate hAppend with
    ⟨written, hWritten, hPruned⟩
  have hLog := isLogOf_fileName names role today
  have hFirst :
      (files names role logs).filter
        (fileName names role today < ·) = [] := by
    rw [List.filter_eq_nil_iff]
    intro name hMem
    simpa using hDaily.le_fileName hDay hDate hMem
  have hOnDisk :=
    (Pruned.onDisk_iff hWritten hPruned hLog).mpr (by
      rw [hFirst]
      exact Nat.succ_pos 6)
  have hMem :
      ∀ name, name ∈ files names role after →
        name = fileName names role today ∨
          name ∈ files names role logs := by
    intro name hName
    exact (mem_files_written hWritten hLog).mp
      (hPruned.mem_files_iff.mp hName).1
  refine ⟨?_, ?_, ?_⟩
  · intro name hName
    by_cases hToday : name = fileName names role today
    · subst hToday
      exact ⟨⟨_, today, le_rfl, hDate, rfl⟩, _, hOnDisk⟩
    · have hOld := (hMem name hName).resolve_left hToday
      rcases hDaily name hOld with
        ⟨⟨d, date, hBefore, hPast, hIs⟩, data, hGet⟩
      refine ⟨⟨d, date, hBefore.trans hDay, hPast, hIs⟩,
        data, ?_⟩
      rw [hPruned name,
        if_neg (hPruned.mem_files_iff.mp hName).2]
      exact hWritten.kept name _ hToday hGet
  · rw [newest_eq_some_iff]
    constructor
    · rw [mem_files, hOnDisk]
      exact ⟨by simp, hLog⟩
    · intro other hOther
      rcases hMem other hOther with rfl | hOld
      · exact le_rfl
      · exact hDaily.le_fileName hDay hDate hOld
  · simp only [LogDir.content, hOnDisk]

end Log

end DevTunnel

end Sshdt

------------------------------------------------------------
-- What The Reader Printed
------------------------------------------------------------

namespace Sshdt

namespace DevTunnel

namespace FollowRun

variable {N : Type}
variable [LinearOrder N]
variable {names : FileNames N}
variable {calendar : Calendar}
variable {role : LogRole}
variable {s t : FollowRun N}

/-
  The reader is within the newest file or in an earlier one,
  and what it printed and has not read make up what is due.
-/
structure Inv
    (names : FileNames N)
    (calendar : Calendar)
    (role : LogRole)
    (s : FollowRun N) : Prop where
  daily : Log.Daily names calendar role s.day s.logs
  current :
    ∀ path, s.reader.current = some path →
      ∃ last, Log.newest names role s.logs = some last ∧
        path ≤ last
  offset :
    ∀ path, s.reader.current = some path →
      Log.newest names role s.logs = some path →
        s.reader.offset ≤ (s.logs.content path).length
  unpolled :
    s.due = none → s.reader = .init
  due :
    ∀ bytes, s.due = some bytes →
      s.reader.printed ++
        Log.unread names role s.logs s.reader = bytes

/- What an append of a run does. -/
theorem append_some
    {now : Nat}
    {command stream text : Text}
    (hStep :
      append names calendar role s now command stream text =
        some t) :
    ∃ today logs,
      s.day ≤ now / 86400 ∧
      calendar.date (now / 86400) = some today ∧
      Log.append names calendar.date role now command stream
        text s.logs = (.ok (), logs) ∧
      t =
        { s with
          logs
          day := now / 86400
          due := s.due.map fun bytes =>
            bytes ++
              (record now command stream text).asBytes } := by
  unfold append at hStep
  split at hStep <;> [skip; cases hStep]
  rename_i hDay
  split at hStep <;> [skip; cases hStep]
  rename_i logs hAppend
  rcases Log.date_of_append_ok hAppend with ⟨today, hDate⟩
  exact ⟨today, logs, hDay, hDate, hAppend,
    (Option.some.inj hStep).symm⟩

/-
  Data at the end of the newest file is unread after what
  was unread before.
-/
theorem unread_append
    {logs after : LogDir N}
    {reader : Follow N}
    {file : N}
    {data : List UInt8}
    (hNewest : Log.newest names role logs = some file)
    (hAfter : Log.newest names role after = some file)
    (hContent :
      after.content file = logs.content file ++ data)
    (hOffset :
      reader.current = some file →
        reader.offset ≤ (logs.content file).length) :
    Log.unread names role after reader =
      Log.unread names role logs reader ++ data := by
  simp only [Log.unread, hNewest, hAfter, hContent]
  split
  · rename_i hCurrent
    rw [List.drop_append_of_le_length (hOffset hCurrent)]
  · simp

/- All of a file that was never opened is unread. -/
theorem unread_other
    {logs : LogDir N}
    {reader : Follow N}
    {file : N}
    (hNewest : Log.newest names role logs = some file)
    (hOther : reader.current ≠ some file) :
    Log.unread names role logs reader = logs.content file := by
  simp only [Log.unread, hNewest, if_neg hOther,
    List.drop_zero]

/- The day's file is new to a reader in an earlier file. -/
theorem Inv.newest_of_current
    {now : Nat}
    {today : Text}
    (hInv : Inv names calendar role s)
    (hDay : s.day ≤ now)
    (hDate : calendar.date now = some today)
    (hCurrent :
      s.reader.current =
        some (Log.fileName names role today)) :
    Log.newest names role s.logs =
      some (Log.fileName names role today) := by
  rcases hInv.current _ hCurrent with ⟨last, hLast, hLe⟩
  have hMem := (Log.newest_eq_some_iff.mp hLast).1
  have hGe := hInv.daily.le_fileName hDay hDate hMem
  rw [hLast, le_antisymm hGe hLe]

/- A file that is not the newest is not there yet. -/
theorem Inv.content_of_not_newest
    {now : Nat}
    {today : Text}
    (hInv : Inv names calendar role s)
    (hDay : s.day ≤ now)
    (hDate : calendar.date now = some today)
    (hNew :
      Log.newest names role s.logs ≠
        some (Log.fileName names role today)) :
    s.logs.content (Log.fileName names role today) = [] := by
  have hNone :
      s.logs.get (Log.fileName names role today) = none := by
    by_contra hThere
    apply hNew
    rw [Log.newest_eq_some_iff, Log.mem_files]
    refine ⟨⟨hThere, Log.isLogOf_fileName _ _ _⟩, ?_⟩
    intro other hOther
    exact hInv.daily.le_fileName hDay hDate hOther
  simp only [LogDir.content, hNone]

/-
  A record that finds the reader in the newest file, or with
  nothing left to read, adds to what is due.
-/
theorem append_inv
    {now : Nat}
    {command stream text : Text}
    (hInv : Inv names calendar role s)
    (hCaught :
      Caught names calendar role s
        (.append now command stream text))
    (hStep :
      append names calendar role s now command stream text =
        some t) :
    Inv names calendar role t := by
  rcases append_some hStep with
    ⟨today, logs, hDay, hDate, hAppend, rfl⟩
  rcases hInv.daily.append hDay hDate hAppend with
    ⟨hDaily, hNewest, hContent⟩
  refine ⟨hDaily, ?_, ?_, ?_, ?_⟩
  · intro path hPath
    rcases hInv.current path hPath with ⟨last, hLast, hLe⟩
    have hMem := (Log.newest_eq_some_iff.mp hLast).1
    exact ⟨_, hNewest,
      hLe.trans (hInv.daily.le_fileName hDay hDate hMem)⟩
  · intro path hPath hLast
    simp only [hNewest, Option.some.injEq] at hLast
    subst hLast
    have hSame := hInv.newest_of_current hDay hDate hPath
    have hOffset := hInv.offset _ hPath hSame
    simp only [hContent, List.length_append]
    omega
  · intro hNone
    exact hInv.unpolled (Option.map_eq_none_iff.mp hNone)
  · intro bytes hBytes
    rcases Option.map_eq_some_iff.mp hBytes with
      ⟨before, hDue, rfl⟩
    have hBefore := hInv.due before hDue
    by_cases hSame :
        Log.newest names role s.logs =
          some (Log.fileName names role today)
    · rw [unread_append hSame hNewest hContent fun hCurrent =>
          hInv.offset _ hCurrent hSame,
        ← List.append_assoc, hBefore]
    · -- The reader has printed the file of the day before.
      have hRead :
          Log.unread names role s.logs s.reader = [] := by
        rcases hCaught with hNone | hFile | hRead
        · rw [hDue] at hNone
          cases hNone
        · rw [hDate] at hFile
          exact absurd hFile hSame
        · exact hRead
      rw [hRead, List.append_nil] at hBefore
      have hOther :
          s.reader.current ≠
            some (Log.fileName names role today) := by
        intro hCurrent
        exact hSame
          (hInv.newest_of_current hDay hDate hCurrent)
      rw [unread_other hNewest hOther, hContent,
        hInv.content_of_not_newest hDay hDate hSame,
        List.nil_append, hBefore]

/- What one poll of a reader within the newest file does. -/
theorem poll_some
    {logs : LogDir N}
    {reader reader' : Follow N}
    (hOffset :
      ∀ path, reader.current = some path →
        Log.newest names role logs = some path →
          reader.offset ≤ (logs.content path).length)
    (hPoll :
      Log.poll names role true logs reader = some reader') :
    reader'.printed =
        reader.printed ++ Log.unread names role logs reader ∧
      ((Log.newest names role logs = none ∧
          reader' = reader) ∨
        ∃ path, Log.newest names role logs = some path ∧
          reader'.current = some path ∧
          reader'.offset = (logs.content path).length) := by
  cases hNewest : Log.newest names role logs with
  | none =>
      simp only [Log.poll, hNewest, if_true,
        Option.some.injEq] at hPoll
      subst hPoll
      simp [Log.unread, hNewest]
  | some path =>
      have hStart :
          (if reader.current = some path then
              reader.offset
            else
              0) ≤ (logs.content path).length := by
        split
        · rename_i hCurrent
          exact hOffset path hCurrent hNewest
        · exact Nat.zero_le _
      simp only [Log.poll, hNewest] at hPoll
      split at hPoll <;> [skip; cases hPoll]
      rename_i bytes hGet
      have hContent : logs.content path = bytes := by
        simp only [LogDir.content, hGet]
      rw [hContent] at hStart
      rw [if_neg (Nat.not_lt.mpr hStart)] at hPoll
      cases hPoll
      refine ⟨?_, Or.inr ⟨path, rfl, rfl, ?_⟩⟩
      · simp only [Log.unread, hNewest, hContent]
      · rw [hContent]
        simp only [List.length_drop]
        omega

/- After a poll everything due is printed. -/
theorem poll_inv
    (hInv : Inv names calendar role s)
    (hStep : poll names role s = some t) :
    Inv names calendar role t ∧
      t.due = some t.reader.printed := by
  unfold poll at hStep
  split at hStep <;> [cases hStep; skip]
  rename_i reader hPoll
  cases hStep
  rcases poll_some hInv.offset hPoll with ⟨hPrinted, hPlace⟩
  have hUnread :
      Log.unread names role s.logs reader = [] := by
    rcases hPlace with
      ⟨hNone, _⟩ | ⟨path, hPath, hCurrent, hOffset⟩
    · simp only [Log.unread, hNone]
    · simp [Log.unread, hPath, hCurrent, hOffset]
  have hDue :
      some (s.due.getD (Log.newestBytes names role s.logs)) =
        some reader.printed := by
    rw [hPrinted]
    cases hBytes : s.due with
    | some bytes =>
        rw [hInv.due bytes hBytes, Option.getD_some]
    | none =>
        rw [hInv.unpolled hBytes, Option.getD_none]
        simp only [Log.newestBytes, Log.unread, Follow.init]
        cases Log.newest names role s.logs <;> simp
  refine ⟨⟨hInv.daily, ?_, ?_, ?_, ?_⟩, hDue⟩
  · intro path hCurrent
    rcases hPlace with
      ⟨_, rfl⟩ | ⟨last, hLast, hOpen, _⟩
    · exact hInv.current path hCurrent
    · rw [hOpen, Option.some.injEq] at hCurrent
      exact ⟨last, hLast, le_of_eq hCurrent.symm⟩
  · intro path hCurrent hNewest
    rcases hPlace with
      ⟨hNone, _⟩ | ⟨last, hLast, hOpen, hOffset⟩
    · rw [hNone] at hNewest
      cases hNewest
    · rw [hLast, Option.some.injEq] at hNewest
      rw [hOffset, hNewest]
  · intro hNone
    cases hNone
  · intro bytes hBytes
    rw [hDue, Option.some.injEq] at hBytes
    rw [hUnread, List.append_nil, hBytes]

end FollowRun

end DevTunnel

end Sshdt

------------------------------------------------------------
-- Every Run
------------------------------------------------------------

namespace Sshdt

namespace DevTunnel

namespace FollowRun

variable {N : Type}
variable [LinearOrder N]
variable {names : FileNames N}
variable {calendar : Calendar}
variable {role : LogRole}
variable {logs : LogDir N}
variable {day : Nat}
variable {s t : FollowRun N}
variable {event : FollowEvent}

theorem init_inv
    (hDaily : Log.Daily names calendar role day logs) :
    Inv names calendar role
      (machine names calendar role logs day).init where
  daily := hDaily
  current := by
    intro path hCurrent
    cases hCurrent
  offset := by
    intro path hCurrent
    cases hCurrent
  unpolled := by
    intro _
    rfl
  due := by
    intro bytes hBytes
    cases hBytes

theorem step_inv
    (hInv : Inv names calendar role s)
    (hCaught : Caught names calendar role s event)
    (hStep : step names calendar role s event = some t) :
    Inv names calendar role t := by
  cases event with
  | append now command stream text =>
      exact append_inv hInv hCaught hStep
  | poll => exact (poll_inv hInv hStep).1

/-
  In a run where every record of a new day finds the reader
  with nothing left to read, every poll leaves printed what
  the newest file had at the first poll and every byte
  appended since, each once and in order.
-/
theorem follow_prints_due
    (names : FileNames N)
    (calendar : Calendar)
    (role : LogRole)
    (logs : LogDir N)
    (day : Nat)
    (events : List FollowEvent)
    (final : FollowRun N)
    (hDaily : Log.Daily names calendar role day logs)
    (hRun :
      (machine names calendar role logs day).exec
        (machine names calendar role logs day).init
        (events ++ [.poll]) = some final)
    (hCaught :
      (machine names calendar role logs day).MeetsAll
        (Caught names calendar role)
        (machine names calendar role logs day).init
        (events ++ [.poll])) :
    final.due = some final.reader.printed := by
  rcases Machine.exec_append.mp hRun with ⟨s, hBefore, hLast⟩
  have hMeets := (Machine.meetsAll_concat hBefore hCaught).1
  have hReached := Machine.Reaches.exec .init hMeets hBefore
  have hInv : Inv names calendar role s :=
    hReached.invariant (init_inv hDaily)
      fun _ _ _ hInv hOk hStep => step_inv hInv hOk hStep
  rw [Machine.exec_singleton] at hLast
  exact (poll_inv hInv hLast).2

/- The first days as a calendar. -/
def firstCalendar : Calendar where
  date := Log.firstDays
  width := by
    intro day text hDate
    rcases day with _ | _ | day <;> cases hDate <;> decide
  increasing := by
    intro day later text text' hDay hDate hDate'
    rcases day with _ | _ | day <;> cases hDate <;>
      rcases later with _ | _ | later <;> cases hDate'
    · cases hDay
    · decide
    · cases hDay
    · simp at hDay

/- A reader of the host's log from its first line. -/
abbrev hostFollow :
    Machine (FollowRun OsString) FollowEvent :=
  machine .wide firstCalendar .host .empty 0

/- A line of the log at some second. -/
def line
    (now : Nat) : FollowEvent :=
  .append now [] [] []

/- The reader is in time for the line of the second day. -/
def timely : List FollowEvent :=
  [line 5, .poll, line 6, .poll, line 86400, line 86401]

/- A directory without files has no log. -/
theorem daily_empty :
    Log.Daily .wide firstCalendar .host 0 .empty := by
  intro name hMem
  cases hMem

/- Every line is printed once. -/
theorem timely_printed :
    ∃ final,
      hostFollow.exec hostFollow.init (timely ++ [.poll]) =
          some final ∧
        final.due = some final.reader.printed := by
  have hRun :
      (hostFollow.exec hostFollow.init
        (timely ++ [.poll])).isSome = true := by
    decide +kernel
  refine ⟨_, (Option.some_get hRun).symm, ?_⟩
  exact follow_prints_due .wide firstCalendar .host .empty 0
    timely _ daily_empty (Option.some_get hRun).symm
    (by decide +kernel)

/- A line comes between the last poll and midnight. -/
def midnight : List FollowEvent :=
  [line 5, .poll, line 6, line 86400]

theorem midnight_runs :
    (hostFollow.exec hostFollow.init
      (midnight ++ [.poll])).isSome = true := by
  decide +kernel

/- That line is not printed. -/
theorem midnight_loses_line :
    Log.Daily .wide firstCalendar .host 0 .empty ∧
      ∃ final,
        hostFollow.exec hostFollow.init
            (midnight ++ [.poll]) = some final ∧
          final.due ≠ some final.reader.printed := by
  refine ⟨daily_empty, _,
    (Option.some_get midnight_runs).symm, ?_⟩
  decide +kernel

end FollowRun

end DevTunnel

end Sshdt
