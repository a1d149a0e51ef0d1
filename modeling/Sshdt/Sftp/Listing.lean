import Sshdt.Sftp.Handles

/-
  Directory listings over a session (`opendir` and `readdir`
  in `src/sftp.rs`).

  `opendir` captures the whole listing; each `readdir` on the
  handle delivers the next batch. The answers to the calls on
  one handle are collected over a run in which anything else
  may happen to the other handles and to the file system.

  Key definitions include:
    * `SftpRun.readdirAnswers`
    * `SftpRun.batches`
    * `SftpRun.listingAnswer`

  Key theorems include:
    * `SftpRun.serve_listing`
    * `SftpRun.exec_listing`
    * `SftpRun.flatten_batches`
    * `SftpRun.listing_delivered`
-/

------------------------------------------------------------
-- Answers And Batches
------------------------------------------------------------

namespace Sshdt

/- The event is a `readdir` on the handle. -/
def SftpEvent.reads
    (handle : Text) : SftpEvent → Bool
  | .request _ asked => asked = .readdir handle
  | .outside _ => false

namespace SftpRun

/- The answers to `readdir` on a handle, in order. -/
def readdirAnswers
    (lib : SftpLibrary)
    (handle : Text) :
    SftpRun → List SftpEvent →
      List (Except StatusCode SftpAnswer)
  | _, [] => []
  | s, .outside fs :: es =>
      readdirAnswers lib handle { s with fs := fs } es
  | s, .request io request :: es =>
      let result := s.session.serve lib s.fs io request
      let rest :=
        match step lib s (.request io request) with
        | some t => readdirAnswers lib handle t es
        | none => []
      if request = .readdir handle then
        result.reply :: rest
      else
        rest

/- The batches among the answers. -/
def batches
    (answers : List (Except StatusCode SftpAnswer)) :
    List (List SftpFile) :=
  answers.filterMap fun
    | .ok (.reply (.name files)) => some files
    | _ => none

/- The batch of a call, by its number. -/
def batchAt
    (entries : List SftpFile)
    (k : Nat) : List SftpFile :=
  (entries.drop (readdirBatch * k)).take readdirBatch

/- The answer to a call, by its number. -/
def listingAnswer
    (entries : List SftpFile)
    (k : Nat) : Except StatusCode SftpAnswer :=
  if readdirBatch * k < entries.length then
    .ok (.reply (.name (batchAt entries k)))
  else
    .error .eof

/- The entry of the handle after a number of calls. -/
def listingEntry
    (entries : List SftpFile)
    (k : Nat) : HandleEntry :=
  .dir entries (min (readdirBatch * k) entries.length)

end SftpRun

end Sshdt

------------------------------------------------------------
-- One Call And Many
------------------------------------------------------------

namespace Sshdt

namespace SftpRun

variable {lib : SftpLibrary}
variable {s t : SftpRun}
variable {handle : Text}
variable {entries : List SftpFile}
variable {k : Nat}

/- The slice that `readdir` takes is the next batch. -/
theorem slice_eq_batchAt
    (entries : List SftpFile)
    (k : Nat) :
    (entries.take
        (min (readdirBatch * k + readdirBatch)
          entries.length)).drop (readdirBatch * k) =
      batchAt entries k := by
  rw [batchAt, List.drop_take, List.take_eq_take_iff,
    List.length_drop]
  omega

/- One `readdir` on the listing. -/
theorem serve_listing
    (io : IoAnswer)
    (hEntry :
      s.entryAt handle = some (listingEntry entries k)) :
    (s.session.serve lib s.fs io (.readdir handle)).reply =
        listingAnswer entries k ∧
      Table.get
          (s.session.serve lib s.fs io
            (.readdir handle)).session.handles handle =
        some (listingEntry entries (k + 1)) ∧
      (entries.length ≤ readdirBatch * k →
        (s.session.serve lib s.fs io
          (.readdir handle)).session = s.session) := by
  have hGet :
      Table.get s.session.handles handle =
        some (.dir entries
          (min (readdirBatch * k) entries.length)) :=
    hEntry
  have hNext : readdirBatch * (k + 1) =
      readdirBatch * k + readdirBatch := Nat.mul_succ _ _
  simp only [SftpSession.serve, SftpSession.readdir, hGet]
  by_cases hMore : readdirBatch * k < entries.length
  · have hOffset :
        min (readdirBatch * k) entries.length =
          readdirBatch * k := by
      omega
    rw [hOffset, if_neg (by omega)]
    refine ⟨?_, ?_, fun hDone => by omega⟩
    · rw [listingAnswer, if_pos hMore, SftpSession.answer,
        slice_eq_batchAt]
    · rw [SftpSession.answer, Table.get_set, if_pos rfl, hGet,
        listingEntry, hNext]
      rfl
  · have hOffset :
        min (readdirBatch * k) entries.length =
          entries.length := by
      omega
    have hOffset' :
        min (readdirBatch * (k + 1)) entries.length =
          entries.length := by
      omega
    rw [hOffset, if_pos (Nat.le_refl _), listingAnswer,
      if_neg hMore]
    refine ⟨rfl, ?_, fun _ => rfl⟩
    rw [SftpSession.answer, hGet, hOffset, listingEntry,
      hOffset']

/- Any other event leaves the listing where it is. -/
theorem step_listing
    {e : SftpEvent}
    (hInv : s.Inv)
    (hStep : step lib s e = some t)
    (hEntry :
      s.entryAt handle = some (listingEntry entries k))
    (hOther : ¬ e.Names handle) :
    t.entryAt handle = some (listingEntry entries k) := by
  have hOpen : ¬ e.Closes handle := by
    intro hCloses
    apply hOther
    cases e with
    | outside fs => exact hCloses
    | request io request =>
        simp only [SftpEvent.Closes] at hCloses
        subst hCloses
        rfl
  rcases step_entry hInv hStep hEntry hOpen with
    ⟨entry, hGet, _, hSame⟩
  rw [hGet, hSame hOther]

/-
  A run on the listing: the answers are the next ones of the
  schedule, and the handle has moved on by as many calls.
-/
theorem exec_listing
    {host : Host}
    {fs : FileSystem}
    {root : Option PathBuf}
    {es : List SftpEvent}
    (hInv : s.Inv)
    (hExec : (machine lib host fs root).exec s es = some t)
    (hEntry :
      s.entryAt handle = some (listingEntry entries k))
    (hOnly :
      ∀ e ∈ es, e.Names handle → e.reads handle = true) :
    readdirAnswers lib handle s es =
        (List.range' k
          (es.countP (SftpEvent.reads handle))).map
          (listingAnswer entries) ∧
      t.entryAt handle =
        some (listingEntry entries
          (k + es.countP (SftpEvent.reads handle))) := by
  induction es generalizing s k with
  | nil =>
      cases hExec
      exact ⟨rfl, hEntry⟩
  | cons e es ih =>
      rcases Machine.exec_cons.mp hExec with
        ⟨u, hStep, hRest⟩
      have hInv' := step_inv hInv hStep
      have hOnly' :
          ∀ e' ∈ es, e'.Names handle →
            e'.reads handle = true :=
        fun e' hMem => hOnly e' (List.mem_cons_of_mem e hMem)
      by_cases hReads : e.reads handle = true
      · cases e with
        | outside fs => cases hReads
        | request io request =>
            simp only [SftpEvent.reads,
              decide_eq_true_eq] at hReads
            subst hReads
            rcases @serve_listing lib s handle entries k io
              hEntry with
              ⟨hReply, hGet, _⟩
            have hEntry' :
                u.entryAt handle =
                  some (listingEntry entries (k + 1)) := by
              cases hStep
              exact hGet
            rcases ih hInv' hRest hEntry' hOnly' with
              ⟨hAnswers, hLast⟩
            have hCount :
                (SftpEvent.request io
                    (.readdir handle) :: es).countP
                  (SftpEvent.reads handle) =
                es.countP (SftpEvent.reads handle) + 1 :=
              List.countP_cons_of_pos (by
                simp [SftpEvent.reads])
            have hStep' :
                step lib s
                  (.request io (.readdir handle)) = some u :=
              hStep
            rw [hCount, List.range'_succ, List.map_cons,
              readdirAnswers, if_pos rfl, hReply]
            refine ⟨by simp only [hStep', hAnswers], ?_⟩
            rw [hLast, Nat.add_right_comm, Nat.add_assoc]
      · have hOther : ¬ e.Names handle := fun hNames =>
          hReads (hOnly e List.mem_cons_self hNames)
        have hEntry' :=
          step_listing hInv hStep hEntry hOther
        rcases ih hInv' hRest hEntry' hOnly' with
          ⟨hAnswers, hLast⟩
        rw [List.countP_cons_of_neg hReads]
        refine ⟨?_, hLast⟩
        cases e with
        | outside fs =>
            cases hStep
            exact hAnswers
        | request io request =>
            simp only [SftpEvent.reads,
              decide_eq_true_eq] at hReads
            have hStep' :
                step lib s (.request io request) = some u :=
              hStep
            rw [readdirAnswers, if_neg hReads]
            simp only [hStep']
            exact hAnswers

end SftpRun

end Sshdt

------------------------------------------------------------
-- Whole Listings
------------------------------------------------------------

namespace Sshdt

namespace SftpRun

variable {lib : SftpLibrary}
variable {entries : List SftpFile}

/- The number of batches of a listing. -/
def batchCount
    (entries : List SftpFile) : Nat :=
  (entries.length + (readdirBatch - 1)) / readdirBatch

theorem batchCount_le_iff
    {k : Nat} :
    batchCount entries ≤ k ↔
      entries.length ≤ readdirBatch * k := by
  unfold batchCount readdirBatch
  omega

theorem batches_append
    (answers answers' :
      List (Except StatusCode SftpAnswer)) :
    batches (answers ++ answers') =
      batches answers ++ batches answers' :=
  List.filterMap_append

/- The first answers deliver the first entries. -/
theorem flatten_batches
    (entries : List SftpFile)
    (m : Nat) :
    (batches ((List.range m).map
        (listingAnswer entries))).flatten =
      entries.take (readdirBatch * m) := by
  induction m with
  | zero => rfl
  | succ m ih =>
      rw [List.range_succ, List.map_append, batches_append,
        List.flatten_append, ih, Nat.mul_succ,
        List.take_add]
      congr 1
      by_cases hMore : readdirBatch * m < entries.length
      · simp [batches, listingAnswer, hMore, batchAt]
      · simp [batches, listingAnswer, hMore]
        omega

/- Every batch has between one and a hundred entries. -/
theorem batches_sized
    {m : Nat}
    {batch : List SftpFile}
    (hBatch :
      batch ∈ batches ((List.range m).map
        (listingAnswer entries))) :
    batch ≠ [] ∧ batch.length ≤ readdirBatch := by
  simp only [batches, List.mem_filterMap, List.mem_map]
    at hBatch
  rcases hBatch with ⟨answer, ⟨k, _, rfl⟩, hName⟩
  by_cases hMore : readdirBatch * k < entries.length
  · simp only [listingAnswer, hMore, if_true,
      Option.some.injEq] at hName
    subst hName
    constructor
    · intro hNil
      have hLength := congrArg List.length hNil
      simp only [batchAt, readdirBatch, List.length_take,
        List.length_drop, List.length_nil] at hLength hMore
      omega
    · exact List.length_take_le _ _
  · simp [listingAnswer, hMore] at hName

/- The first answers of the schedule. -/
theorem take_answers
    (entries : List SftpFile)
    (m j : Nat) :
    ((List.range m).map (listingAnswer entries)).take j =
      (List.range (min j m)).map
        (listingAnswer entries) := by
  rw [← List.map_take, List.take_range]

/- A call on a listing that was delivered changes nothing. -/
theorem step_delivered
    {s t : SftpRun}
    {io : IoAnswer}
    {handle : Text}
    {k : Nat}
    (hEntry :
      s.entryAt handle = some (listingEntry entries k))
    (hDone : batchCount entries ≤ k)
    (hStep :
      step lib s (.request io (.readdir handle)) = some t) :
    (s.session.serve lib s.fs io
        (.readdir handle)).reply = .error .eof ∧
      t = s := by
  have hAll := batchCount_le_iff.mp hDone
  rcases @serve_listing lib s handle entries k io hEntry with
    ⟨hReply, _, hSession⟩
  rw [listingAnswer, if_neg (by omega)] at hReply
  refine ⟨hReply, ?_⟩
  have hFs :
      (s.session.serve lib s.fs io (.readdir handle)).fs =
        s.fs := by
    simp only [SftpSession.serve, SftpSession.readdir]
    repeat' split
    all_goals rfl
  simp only [step, Option.some.injEq] at hStep
  rw [← hStep, hSession hAll, hFs, SftpResult.handle?, hReply]
  simp

/-
  What the client gets of a listing that `opendir` captured,
  in a run that does nothing else with its handle: the
  batches make up a prefix of the listing, each with one to a
  hundred entries; as many calls as the listing has hundreds,
  rounded up, complete it, and no fewer; and every further
  call answers `Eof` and changes nothing.
-/
theorem listing_delivered
    {host : Host}
    {fs : FileSystem}
    {root : Option PathBuf}
    {s t u : SftpRun}
    {io : IoAnswer}
    {path handle : Text}
    {es : List SftpEvent}
    (hReachable : (machine lib host fs root).Reachable s)
    (hStep :
      step lib s (.request io (.path (.opendir path))) =
        some t)
    (hReply :
      (s.session.serve lib s.fs io
          (.path (.opendir path))).reply =
        .ok (.reply (.handle handle)))
    (hExec : (machine lib host fs root).exec t es = some u)
    (hOnly :
      ∀ e ∈ es, e.Names handle → e.reads handle = true) :
    ∃ real dirents entries,
      s.session.resolve s.fs path = .ok real ∧
        (s.fs.readDir real).result = .ok dirents ∧
        SftpSession.listing lib dirents = .dir entries 0 ∧
        let answers := readdirAnswers lib handle t es
        (∀ j,
          (batches (answers.take j)).flatten <+: entries) ∧
        (∀ batch ∈ batches answers,
          batch ≠ [] ∧ batch.length ≤ 100) ∧
        (∀ j, j ≤ answers.length →
          ((batches (answers.take j)).flatten = entries ↔
            (entries.length + 99) / 100 ≤ j)) ∧
        (∀ j answer, (entries.length + 99) / 100 ≤ j →
          answers[j]? = some answer →
          answer = .error .eof) ∧
        ((entries.length + 99) / 100 ≤ answers.length →
          ∀ io v,
            step lib u (.request io (.readdir handle)) =
              some v →
            (u.session.serve lib u.fs io
                (.readdir handle)).reply = .error .eof ∧
              v = u) := by
  have hInv := reachable_inv hReachable
  rcases hInv.allocates rfl hStep hReply with
    ⟨key, entry, hKey, _, _, _, hCreates, hGet, _⟩
  cases hKey
  rcases hCreates with ⟨real, dirents, hReal, hRead, rfl⟩
  let entries := dirents.map fun dirent =>
    ({ filename := dirent.1.text
       attrs := lib.attributes dirent.2 } : SftpFile)
  have hStart :
      t.entryAt handle = some (listingEntry entries 0) := by
    rw [hGet, listingEntry, Nat.mul_zero, Nat.zero_min]
    rfl
  rcases exec_listing (step_inv hInv hStep) hExec hStart
    hOnly with ⟨hAnswers, hLast⟩
  generalize es.countP (SftpEvent.reads handle) = m
    at hAnswers hLast
  rw [← List.range_eq_range'] at hAnswers
  rw [Nat.zero_add] at hLast
  refine ⟨real, dirents, entries, hReal, hRead, rfl, ?_⟩
  intro answers
  have hSchedule :
      answers = (List.range m).map (listingAnswer entries) :=
    hAnswers
  have hLength : answers.length = m := by
    rw [hSchedule, List.length_map, List.length_range]
  have hCount :
      (entries.length + 99) / 100 = batchCount entries := rfl
  rw [hCount, hLength]
  refine ⟨?_, ?_, ?_, ?_, ?_⟩
  · intro j
    rw [hSchedule, take_answers, flatten_batches]
    exact List.take_prefix _ _
  · intro batch hBatch
    rw [hSchedule] at hBatch
    exact batches_sized hBatch
  · intro j hj
    rw [hSchedule, take_answers, flatten_batches,
      List.take_eq_self_iff, Nat.min_eq_left hj,
      batchCount_le_iff]
  · intro j answer hDone hAnswer
    have hAll := batchCount_le_iff.mp hDone
    rw [hSchedule, List.getElem?_map,
      Option.map_eq_some_iff] at hAnswer
    rcases hAnswer with ⟨k, hIndex, rfl⟩
    have hSame : k = j := by
      rcases List.getElem?_eq_some_iff.mp hIndex with
        ⟨_, hValue⟩
      simpa using hValue.symm
    rw [hSame, listingAnswer, if_neg (by omega)]
  · intro hDone io v hNext
    exact step_delivered hLast hDone hNext

/- A session in which a directory has just been opened. -/
def openedRun : SftpRun :=
  (machine russhSftp bareHost
    (linkedFs "/outside".toList) none).final
    [.request quietIo (.path (.opendir "/jail".toList))] rfl

/- Two calls, with another request between them. -/
def listingRun : List SftpEvent :=
  [.request quietIo (.readdir "h0".toList),
    .request quietIo (.read "h1".toList 0 10),
    .request quietIo (.readdir "h0".toList)]

theorem listingRun_delivered :
    let answers :=
      readdirAnswers russhSftp "h0".toList openedRun listingRun
    answers.length = 2 ∧
      (batches answers).length = 1 ∧
      ∀ batch ∈ batches answers,
        batch ≠ [] ∧ batch.length ≤ 100 := by
  intro answers
  refine ⟨by decide +kernel, by decide +kernel, ?_⟩
  rcases @listing_delivered russhSftp bareHost
      (linkedFs "/outside".toList) none _ openedRun _ quietIo
      "/jail".toList "h0".toList listingRun .init rfl rfl
      (Option.some_get (by decide +kernel :
        ((machine russhSftp bareHost
          (linkedFs "/outside".toList) none).exec openedRun
            listingRun).isSome = true)).symm
      (by
        intro e hMem hNames
        simp only [listingRun, List.mem_cons,
          List.not_mem_nil, or_false] at hMem
        rcases hMem with rfl | rfl | rfl
        · rfl
        · cases hNames
        · rfl) with
    ⟨_, _, _, _, _, _, _, hSized, _⟩
  exact hSized

end SftpRun

end Sshdt
