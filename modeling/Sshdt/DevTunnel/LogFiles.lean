import Sshdt.DevTunnel.Logs
import Sshdt.Lib.OsPath
import Sshdt.Lib.Retention
import Sshdt.Lib.Table

/-
  The files of the tunnel logs (`Log::append` in
  `src/devtunnel/logs.rs`).

  Each role has one file for each day. An append writes to
  the file of the day and then removes all but the last
  seven files of the role, in the order of their names. The
  file just written is among those removed when seven files
  of the role sort above it.

  The calendar of the time crate is the parameter `date`.

  Key definitions include:
    * `LogDir`
    * `Log.isLogOf`
    * `Log.append`
    * `Log.Written`
    * `Log.Pruned`
    * `Log.Retained`

  Key theorems include:
    * `Log.removeFiles_ok`
    * `Log.append_ok`
    * `Log.append_retains_iff`
-/

------------------------------------------------------------
-- The Log Directory
------------------------------------------------------------

namespace Sshdt

namespace DevTunnel

variable {N : Type}
variable [LinearOrder N]

/- What a name of a directory stands for. -/
inductive LogEntry where
  | file (data : List UInt8)
  | dir
  deriving DecidableEq, Repr

/- The entries of the directory `logs`, one for each name. -/
structure LogDir (N : Type) [LinearOrder N] where
  entries : List (N × LogEntry)
  nodup : (entries.map Prod.fst).Nodup

namespace LogDir

/- A directory without entries. -/
def empty : LogDir N where
  entries := []
  nodup := List.nodup_nil

/- What a name stands for. -/
def get
    (logs : LogDir N)
    (name : N) : Option LogEntry :=
  Table.get logs.entries name

/- The directory with a file written. -/
def write
    (logs : LogDir N)
    (name : N)
    (data : List UInt8) : LogDir N where
  entries := Table.insert logs.entries name (.file data)
  nodup := Table.nodup_insert logs.nodup

/- The directory without a name. -/
def remove
    (logs : LogDir N)
    (name : N) : LogDir N where
  entries := Table.remove logs.entries name
  nodup := Table.nodup_remove logs.nodup

/- `fs::read_dir`. -/
def names
    (logs : LogDir N) : List N :=
  logs.entries.map Prod.fst

/- The bytes of a file, none if it is not there. -/
def content
    (logs : LogDir N)
    (name : N) : List UInt8 :=
  match logs.get name with
  | some (.file data) => data
  | _ => []

theorem get_write
    (logs : LogDir N)
    (name other : N)
    (data : List UInt8) :
    (logs.write name data).get other =
      if other = name then
        some (.file data)
      else
        logs.get other :=
  Table.get_insert logs.entries name other (.file data)

theorem get_remove
    (logs : LogDir N)
    (name other : N) :
    (logs.remove name).get other =
      if other = name then none else logs.get other :=
  Table.get_remove logs.entries name other

theorem mem_names
    {logs : LogDir N}
    {name : N} :
    name ∈ logs.names ↔ logs.get name ≠ none := by
  rw [get, ne_eq, Table.get_eq_none_iff, not_not, names]

end LogDir

end DevTunnel

end Sshdt

------------------------------------------------------------
-- Appending A Record
------------------------------------------------------------

namespace Sshdt

namespace DevTunnel

variable {N : Type}
variable [LinearOrder N]

/- The two logs. Any other role is refused at once. -/
inductive LogRole where
  | host
  | client
  deriving DecidableEq, Repr

namespace LogRole

/- The name of a role on the command line. -/
def asStr : LogRole → Text
| .host => "host".toList
| .client => "client".toList

/- What the names of a role's files start with. -/
def stem : LogRole → Text
| .host => "devtunnel".toList
| .client => "devtunnel-client".toList

end LogRole

namespace Log

section

variable (names : FileNames N)

/- The file that is locked for an append. -/
def lockName
    (role : LogRole) : N :=
  names.ofText (role.stem ++ ".lock".toList)

/- The file of a day. -/
def fileName
    (role : LogRole)
    (date : Text) : N :=
  names.ofText
    (role.stem ++ ".".toList ++ date ++ ".log".toList)

/- The names that count as log files of a role. -/
def isLogOf
    (role : LogRole)
    (name : N) : Bool :=
  let text := names.toStringLossy name
  (role.stem ++ ".".toList).isPrefixOf text &&
    ".log".toList.isSuffixOf text

/-
  The log files of a role in order. The paths are sorted in
  the source; they differ in their last component only.
-/
def files
    (role : LogRole)
    (logs : LogDir N) : List N :=
  Retention.sorted (logs.names.filter (isLogOf names role))

end

/- Where an append fails. -/
inductive AppendError where
  | openLock
  | calendar
  | openLog
  | prune
  deriving DecidableEq, Repr

/- Opening a file for writing, which creates it. -/
def openFile
    (logs : LogDir N)
    (name : N) : Option (LogDir N) :=
  match logs.get name with
  | some .dir => none
  | some (.file _) => some logs
  | none => some (logs.write name [])

/- Removing files one after another, up to a failure. -/
def removeFiles :
    List N → LogDir N → Except AppendError Unit × LogDir N
| [], logs => (.ok (), logs)
| name :: rest, logs =>
    match logs.get name with
    | some (.file _) => removeFiles rest (logs.remove name)
    | _ => (.error .prune, logs)

/- How many log files of a role are kept. -/
def keptLogs : Nat :=
  7

/- `Log::append`. `calendar` is the panic of `date`. -/
def append
    (names : FileNames N)
    (date : Nat → Option Text)
    (role : LogRole)
    (now : Nat)
    (command stream text : Text)
    (logs : LogDir N) :
    Except AppendError Unit × LogDir N :=
  match openFile logs (lockName names role) with
  | none => (.error .openLock, logs)
  | some locked =>
    match date (now / 86400) with
    | none => (.error .calendar, locked)
    | some today =>
      let name := fileName names role today
      match openFile locked name with
      | none => (.error .openLog, locked)
      | some opened =>
          let written := opened.write name
            (opened.content name ++
              (record now command stream text).asBytes)
          removeFiles
            (Retention.excess keptLogs
              (files names role written))
            written

end Log

end DevTunnel

end Sshdt

------------------------------------------------------------
-- Names Of Log Files
------------------------------------------------------------

namespace Sshdt

namespace DevTunnel

namespace Log

variable {N : Type}
variable [LinearOrder N]
variable {names : FileNames N}
variable {role : LogRole}
variable {logs : LogDir N}
variable {name : N}

theorem isLogOf_iff :
    isLogOf names role name = true ↔
      role.stem ++ ".".toList <+: names.toStringLossy name ∧
        ".log".toList <:+ names.toStringLossy name := by
  simp only [isLogOf, Bool.and_eq_true,
    List.isPrefixOf_iff_prefix, List.isSuffixOf_iff_suffix]

@[simp]
theorem isLogOf_fileName
    (names : FileNames N)
    (role : LogRole)
    (date : Text) :
    isLogOf names role (fileName names role date) = true := by
  rw [isLogOf_iff, fileName, names.toStringLossy_ofText]
  constructor
  · rw [List.append_assoc]
    exact List.prefix_append _ _
  · exact List.suffix_append _ _

theorem fileName_injective
    (names : FileNames N)
    (role : LogRole) :
    Function.Injective (fileName names role) := by
  intro date other hName
  have hText := congrArg names.toStringLossy hName
  simpa only [fileName, names.toStringLossy_ofText,
    List.append_cancel_right_eq,
    List.append_cancel_left_eq] using hText

@[simp]
theorem isLogOf_lockName
    (names : FileNames N)
    (role : LogRole) :
    isLogOf names role (lockName names role) = false := by
  rw [isLogOf, lockName, names.toStringLossy_ofText]
  cases role <;> decide

/- No file is a log file of both roles. -/
theorem isLogOf_other
    {other : LogRole}
    (hOther : other ≠ role)
    (hLog : isLogOf names other name = true) :
    isLogOf names role name = false := by
  by_contra hBoth
  rw [Bool.not_eq_false, isLogOf_iff] at hBoth
  rw [isLogOf_iff] at hLog
  have hComparable :
      role.stem ++ ".".toList <+: other.stem ++ ".".toList ∨
        other.stem ++ ".".toList <+: role.stem ++ ".".toList :=
    List.prefix_or_prefix_of_prefix hBoth.1 hLog.1
  revert hOther hComparable
  cases other <;> cases role <;> decide

theorem mem_files :
    name ∈ files names role logs ↔
      logs.get name ≠ none ∧ isLogOf names role name = true := by
  rw [files, Retention.mem_sorted, List.mem_filter,
    LogDir.mem_names]

theorem files_lt
    (names : FileNames N)
    (role : LogRole)
    (logs : LogDir N) :
    (files names role logs).Pairwise (· < ·) :=
  Retention.sorted_lt (logs.nodup.filter _)

theorem files_nodup
    (names : FileNames N)
    (role : LogRole)
    (logs : LogDir N) :
    (files names role logs).Nodup :=
  (files_lt names role logs).imp fun hLt => ne_of_lt hLt

end Log

end DevTunnel

end Sshdt

------------------------------------------------------------
-- What An Append Does
------------------------------------------------------------

namespace Sshdt

namespace DevTunnel

namespace Log

variable {N : Type}
variable [LinearOrder N]
variable {names : FileNames N}
variable {date : Nat → Option Text}
variable {role : LogRole}
variable {now : Nat}
variable {command stream text today : Text}
variable {logs opened after : LogDir N}
variable {name other : N}

/- Opening a file leaves its bytes and the other files. -/
theorem openFile_some
    (hOpen : openFile logs name = some opened) :
    opened.get name = some (.file (logs.content name)) ∧
      ∀ other, other ≠ name →
        opened.get other = logs.get other := by
  unfold openFile at hOpen
  split at hOpen
  · cases hOpen
  · rename_i data hGet
    cases hOpen
    refine ⟨?_, fun _ _ => rfl⟩
    rw [LogDir.content, hGet]
  · rename_i hGet
    cases hOpen
    refine ⟨?_, ?_⟩
    · rw [LogDir.get_write, if_pos rfl, LogDir.content, hGet]
    · intro other hOther
      rw [LogDir.get_write, if_neg hOther]

/- Files removed without a failure are gone, and no others. -/
theorem removeFiles_ok
    {gone : List N}
    (hRemove : removeFiles gone logs = (.ok (), after))
    (name : N) :
    after.get name =
      if name ∈ gone then none else logs.get name := by
  induction gone generalizing logs with
  | nil =>
      cases hRemove
      simp
  | cons first rest ih =>
      unfold removeFiles at hRemove
      split at hRemove <;> [skip; cases hRemove]
      rw [ih hRemove, LogDir.get_remove]
      by_cases hFirst : name = first <;> simp [hFirst]

/-
  The directory after data is written to a file of a role,
  which may have created the lock file.
-/
structure Written
    (names : FileNames N)
    (role : LogRole)
    (file : N)
    (data : List UInt8)
    (logs written : LogDir N) : Prop where
  today :
    written.get file =
      some (.file (logs.content file ++ data))
  kept :
    ∀ name entry, name ≠ file →
      logs.get name = some entry →
        written.get name = some entry
  others :
    ∀ name, name ≠ file → name ≠ lockName names role →
      written.get name = logs.get name

/- The directory after the log files of a role are pruned. -/
def Pruned
    (names : FileNames N)
    (role : LogRole)
    (written after : LogDir N) : Prop :=
  ∀ name, after.get name =
    if name ∈ Retention.excess keptLogs
        (files names role written) then
      none
    else
      written.get name

theorem fileName_ne_lockName
    (names : FileNames N)
    (role : LogRole)
    (date : Text) :
    fileName names role date ≠ lockName names role := by
  intro hSame
  have hLog := isLogOf_fileName names role date
  rw [hSame, isLogOf_lockName] at hLog
  cases hLog

/- A successful append has a date. -/
theorem date_of_append_ok
    (hAppend :
      append names date role now command stream text logs =
        (.ok (), after)) :
    ∃ today, date (now / 86400) = some today := by
  unfold append at hAppend
  split at hAppend <;> [cases hAppend; skip]
  split at hAppend <;> [cases hAppend; skip]
  rename_i today hDate
  exact ⟨today, hDate⟩

/- A successful append writes the record and then prunes. -/
theorem append_ok
    (hDate : date (now / 86400) = some today)
    (hAppend :
      append names date role now command stream text logs =
        (.ok (), after)) :
    ∃ written,
      Written names role (fileName names role today)
        (record now command stream text).asBytes
        logs written ∧
      Pruned names role written after := by
  simp only [append, hDate] at hAppend
  split at hAppend <;> [cases hAppend; skip]
  rename_i locked hLock
  split at hAppend <;> [cases hAppend; skip]
  rename_i opened hOpen
  rcases openFile_some hLock with ⟨_, hLockOthers⟩
  rcases openFile_some hOpen with ⟨hFile, hOpenOthers⟩
  refine ⟨_, ⟨?_, ?_, ?_⟩, removeFiles_ok hAppend⟩
  · -- The bytes written follow those of the old file.
    rw [LogDir.get_write, if_pos rfl]
    have hOld :=
      hLockOthers _ (fileName_ne_lockName names role today)
    simp only [LogDir.content, hFile, hOld]
  · intro name entry hName hGet
    rw [LogDir.get_write, if_neg hName, hOpenOthers _ hName]
    by_cases hIsLock : name = lockName names role
    · subst hIsLock
      simp only [openFile, hGet] at hLock
      split at hLock <;> [cases hLock; skip; skip]
      · cases hLock
        exact hGet
      · rename_i hNone
        cases hNone
    · rw [hLockOthers _ hIsLock, hGet]
  · intro name hName hIsLock
    rw [LogDir.get_write, if_neg hName, hOpenOthers _ hName,
      hLockOthers _ hIsLock]

/- A log file that is written is the day's or was there. -/
theorem mem_files_written
    {file : N}
    {data : List UInt8}
    {written : LogDir N}
    (hWritten : Written names role file data logs written)
    (hLog : isLogOf names role file = true) :
    name ∈ files names role written ↔
      name = file ∨ name ∈ files names role logs := by
  rw [mem_files, mem_files]
  by_cases hFile : name = file
  · subst hFile
    simp [hWritten.today, hLog]
  · by_cases hIsLock : name = lockName names role
    · subst hIsLock
      simp [hFile]
    · simp [hWritten.others name hFile hIsLock, hFile]

/- As many log files sort above the day's as before. -/
theorem length_above_written
    {file : N}
    {data : List UInt8}
    {written : LogDir N}
    (hWritten : Written names role file data logs written)
    (hLog : isLogOf names role file = true) :
    ((files names role written).filter (file < ·)).length =
      ((files names role logs).filter (file < ·)).length := by
  apply List.Perm.length_eq
  rw [List.perm_ext_iff_of_nodup
    ((files_nodup names role written).filter _)
    ((files_nodup names role logs).filter _)]
  intro name
  rw [List.mem_filter, List.mem_filter,
    mem_files_written hWritten hLog]
  constructor
  · rintro ⟨rfl | hMem, hAbove⟩
    · simp at hAbove
    · exact ⟨hMem, hAbove⟩
  · rintro ⟨hMem, hAbove⟩
    exact ⟨Or.inr hMem, hAbove⟩

end Log

end DevTunnel

end Sshdt

------------------------------------------------------------
-- Which Files Are Kept
------------------------------------------------------------

namespace Sshdt

namespace DevTunnel

namespace Log

variable {N : Type}
variable [LinearOrder N]
variable {names : FileNames N}
variable {date : Nat → Option Text}
variable {role : LogRole}
variable {now : Nat}
variable {command stream text today : Text}
variable {file : N}
variable {data : List UInt8}
variable {logs written after : LogDir N}

/-
  What retention is for: after data is appended to a file of
  a role, seven files of the role are left at most, no other
  file is touched, the files removed sort below those kept,
  and the data is there.
-/
structure Retained
    (names : FileNames N)
    (role : LogRole)
    (file : N)
    (data : List UInt8)
    (logs after : LogDir N) : Prop where
  atMostSeven :
    (files names role after).length ≤ 7
  otherRole :
    ∀ other name entry, other ≠ role →
      isLogOf names other name = true →
        logs.get name = some entry →
          after.get name = some entry
  foreign :
    ∀ name entry, isLogOf names role name = false →
      logs.get name = some entry →
        after.get name = some entry
  oldest :
    ∀ gone kept, (logs.get gone ≠ none ∨ gone = file) →
      after.get gone = none →
        kept ∈ files names role after → gone < kept
  onDisk :
    after.get file = some (.file (logs.content file ++ data))

theorem Pruned.mem_files_iff
    {name : N}
    (hPruned : Pruned names role written after) :
    name ∈ files names role after ↔
      name ∈ files names role written ∧
        name ∉ Retention.excess keptLogs
          (files names role written) := by
  rw [mem_files, mem_files, hPruned name]
  by_cases hGone : name ∈ Retention.excess keptLogs
      (files names role written) <;> simp [hGone]

theorem Pruned.length_files
    (hPruned : Pruned names role written after) :
    (files names role after).length ≤ 7 := by
  have hPerm :
      (files names role after).Perm
        ((files names role written).filter fun name =>
          name ∉ Retention.excess keptLogs
            (files names role written)) := by
    rw [List.perm_ext_iff_of_nodup
      (files_nodup names role after)
      ((files_nodup names role written).filter _)]
    intro name
    rw [hPruned.mem_files_iff, List.mem_filter,
      decide_eq_true_eq]
  rw [hPerm.length_eq, show (7 : Nat) = keptLogs from rfl]
  apply Retention.length_kept
  intro name hGone
  simpa using hGone

/- A file that is no log file of the role is kept. -/
theorem Pruned.foreign
    {name : N}
    {entry : LogEntry}
    (hWritten : Written names role file data logs written)
    (hPruned : Pruned names role written after)
    (hFile : isLogOf names role file = true)
    (hForeign : isLogOf names role name = false)
    (hGet : logs.get name = some entry) :
    after.get name = some entry := by
  have hKept :
      name ∉ Retention.excess keptLogs
        (files names role written) := by
    intro hGone
    have hMem := (mem_files.mp (List.mem_of_mem_take hGone)).2
    rw [hForeign] at hMem
    cases hMem
  have hOther : name ≠ file := by
    rintro rfl
    rw [hForeign] at hFile
    cases hFile
  rw [hPruned name, if_neg hKept,
    hWritten.kept name entry hOther hGet]

/- A file that is gone sorts below the files that are left. -/
theorem Pruned.lt_of_gone
    {gone kept : N}
    (hWritten : Written names role file data logs written)
    (hPruned : Pruned names role written after)
    (hBefore : logs.get gone ≠ none ∨ gone = file)
    (hGone : after.get gone = none)
    (hKept : kept ∈ files names role after) :
    gone < kept := by
  rcases hPruned.mem_files_iff.mp hKept with ⟨hMem, hLeft⟩
  have hThere : written.get gone ≠ none := by
    by_cases hFile : gone = file
    · rw [hFile, hWritten.today]
      simp
    · rcases hBefore with hSome | hSame
      · rcases Option.ne_none_iff_exists'.mp hSome with
          ⟨entry, hEntry⟩
        rw [hWritten.kept gone entry hFile hEntry]
        simp
      · exact absurd hSame hFile
  have hExcess :
      gone ∈ Retention.excess keptLogs
        (files names role written) := by
    by_contra hNot
    rw [hPruned gone, if_neg hNot] at hGone
    exact hThere hGone
  exact Retention.lt_of_excess (files_lt names role written)
    hExcess hMem hLeft

/- The data is there when few files sort above its file. -/
theorem Pruned.onDisk_iff
    (hWritten : Written names role file data logs written)
    (hPruned : Pruned names role written after)
    (hFile : isLogOf names role file = true) :
    after.get file =
        some (.file (logs.content file ++ data)) ↔
      ((files names role logs).filter (file < ·)).length <
        7 := by
  have hMem : file ∈ files names role written :=
    (mem_files_written hWritten hFile).mpr (Or.inl rfl)
  have hExcess :=
    @Retention.mem_excess_iff _ _ _ keptLogs _
      (files_lt names role written) hMem
  rw [length_above_written hWritten hFile] at hExcess
  rw [hPruned file, hWritten.today, ← not_le,
    show (7 : Nat) = keptLogs from rfl, ← hExcess]
  by_cases hGone : file ∈ Retention.excess keptLogs
      (files names role written) <;> simp [hGone]

/-
  Exactly when an append keeps what it should: fewer than
  seven log files of the role sort above the file of the
  day.
-/
theorem append_retains_iff
    (names : FileNames N)
    (date : Nat → Option Text)
    (role : LogRole)
    (now : Nat)
    (command stream text today : Text)
    (logs after : LogDir N)
    (hDate : date (now / 86400) = some today)
    (hAppend :
      append names date role now command stream text logs =
        (.ok (), after)) :
    Retained names role (fileName names role today)
        (record now command stream text).asBytes
        logs after ↔
      ((files names role logs).filter
        (fileName names role today < ·)).length < 7 := by
  rcases append_ok hDate hAppend with
    ⟨written, hWritten, hPruned⟩
  have hFile := isLogOf_fileName names role today
  rw [← Pruned.onDisk_iff hWritten hPruned hFile]
  constructor
  · intro hRetained
    exact hRetained.onDisk
  · intro hOnDisk
    refine ⟨Pruned.length_files hPruned, ?_, ?_, ?_, hOnDisk⟩
    · intro other name entry hOther hLog hGet
      exact Pruned.foreign hWritten hPruned hFile
        (isLogOf_other hOther hLog) hGet
    · intro name entry hForeign hGet
      exact Pruned.foreign hWritten hPruned hFile hForeign hGet
    · intro gone kept hBefore hGone hKept
      exact Pruned.lt_of_gone hWritten hPruned hBefore hGone
        hKept

/- The first days of the calendar. -/
def firstDays : Nat → Option Text
| 0 => some "1970-01-01".toList
| 1 => some "1970-01-02".toList
| _ => none

/- The host's log of some days. -/
def hostLogs
    (dates : List Text)
    (hDates : dates.Nodup) : LogDir OsString where
  entries := dates.map fun day =>
    (fileName .wide .host day, .file [1])
  nodup := by
    rw [List.map_map]
    exact hDates.map (fileName_injective .wide .host)

/- A log of the day before. -/
def pastLogs : LogDir OsString :=
  hostLogs ["1969-12-31".toList] (List.nodup_singleton _)

/- A log of seven later days. -/
def laterLogs : LogDir OsString :=
  hostLogs
    ["2030-01-01".toList, "2030-01-02".toList,
      "2030-01-03".toList, "2030-01-04".toList,
      "2030-01-05".toList, "2030-01-06".toList,
      "2030-01-07".toList]
    (by decide)

/- The directory after a line of the host on the first day. -/
def afterLine
    (logs : LogDir OsString) : LogDir OsString :=
  (append .wide firstDays .host 5 [] [] [] logs).2

/- With an earlier day in the log the record is kept. -/
theorem pastLogs_retained :
    Retained .wide .host
      (fileName .wide .host "1970-01-01".toList)
      (record 5 [] [] []).asBytes
      pastLogs (afterLine pastLogs) :=
  (append_retains_iff .wide firstDays .host 5 [] [] [] _
    pastLogs _ rfl (Prod.ext (by decide +kernel) rfl)).mpr
    (by decide +kernel)

/- With seven later days the record is removed at once. -/
theorem laterLogs_not_retained :
    (append .wide firstDays .host 5 [] [] [] laterLogs).1 =
        .ok () ∧
      (afterLine laterLogs).get
          (fileName .wide .host "1970-01-01".toList) = none ∧
      ¬ Retained .wide .host
        (fileName .wide .host "1970-01-01".toList)
        (record 5 [] [] []).asBytes
        laterLogs (afterLine laterLogs) := by
  have hGone :
      (afterLine laterLogs).get
        (fileName .wide .host "1970-01-01".toList) = none := by
    decide +kernel
  refine ⟨by decide +kernel, hGone, ?_⟩
  intro hRetained
  have hOnDisk := hRetained.onDisk
  rw [hGone] at hOnDisk
  cases hOnDisk

end Log

end DevTunnel

end Sshdt
