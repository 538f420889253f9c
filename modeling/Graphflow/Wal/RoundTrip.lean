import Graphflow.Wal.HeaderBuffer

/-!
# Logging and iterating

What has been logged into a new WAL is read back, over the same file handle and over a new one, as
long as the pages of the file have indices of 32 bits.  The page with the largest index is not used,
since its index is the null pointer.
-/

namespace Graphflow.Wal

variable {buffer : HeaderBuffer} {page : HeaderPage} {file : BufferFile} {it it' : BufferIterator}
  {record : WALRecord} {read : List (Option WALRecord)} {b b' : BufferedWAL} {wal wal' : WAL}
  {closed : List (ℕ × List WALRecord)} {logged : List WALRecord} {s : LogStep}
  {steps : List LogStep}

/-- The iterator returns the records one after the other, and then has no next record. -/
def BufferIterator.Reads (file : BufferFile) (it : BufferIterator) (records : List WALRecord) :
    Prop :=
  ∃ fuel, it.readAll file fuel = some (.ok (records.map some))

/-- What one expects of the WAL after `flushAllPages` when the records have been logged. -/
structure RoundTrips (wal : BufferedWAL) (logged : List WALRecord) : Prop where
  sameHandle : ∃ it, BufferIterator.new wal.disk wal.numPages = .ok it ∧ it.Reads wal.disk logged
  newHandle : ∃ it, BufferIterator.new wal.disk wal.disk.numPages = .ok it ∧
    it.Reads wal.disk logged
  pages : (wal.headerPages ++ wal.dataPages).Nodup
  commit : wal.isLastLoggedRecordCommit = true ↔
    ∃ record, logged.getLast? = some record ∧ record.isCommit = true
  reopened : ∃ fuel commit, BufferedWAL.openFile fuel wal.disk = some (.ok commit) ∧
    (commit = true ↔ ∃ record, logged.getLast? = some record ∧ record.isCommit = true)

/-- The number of records that a header page has room for. -/
def recordsPerHeaderPage : ℕ := (headerPageSize - headerPagePrefixSize) / walRecordSize

def LogStep.numRecords : LogStep → ℕ
  | .log _ => 1
  | .logPage .. => 1
  | .writeDataPage .. => 0
  | .flushHeaderPages => 0

def LogStep.numDataPages : LogStep → ℕ
  | .logPage .. => 1
  | _ => 0

/-- The pages of a WAL with so many data pages and records. -/
def numPagesFor (numDataPages numRecords : ℕ) : ℕ :=
  numDataPages + max 1 ((numRecords + (recordsPerHeaderPage - 1)) / recordsPerHeaderPage)

/-- The pages that a sequence of log calls takes in a new WAL. -/
def numPagesNeeded (steps : List LogStep) : ℕ :=
  numPagesFor (steps.map LogStep.numDataPages).sum (steps.map LogStep.numRecords).sum

/-! ## Reading header pages -/

namespace BufferIterator

theorem reads_end (h : it.hasNextRecord = false) : it.Reads file [] :=
  ⟨1, by simp [readAll, h]⟩

theorem reads_next {records : List WALRecord} (hnext : it.hasNextRecord = true)
    (hget : it.getNextRecord file = .ok (some record, it')) (hrest : it'.Reads file records) :
    it.Reads file (record :: records) := by
  obtain ⟨fuel, hfuel⟩ := hrest
  refine ⟨fuel + 1, ?_⟩
  rw [readAll, if_pos hnext, hget]
  simp only [hfuel]
  rfl

theorem hasNextRecord_of_holds {k o : ℕ} (h : buffer.Holds page) :
    hasNextRecord ⟨buffer, o, k⟩ = decide (k < page.records.length) := by
  simp only [hasNextRecord, h.numRecords]

/-- The iterator stays in the page. -/
theorem getNextRecord_of_holds {k : ℕ} (h : buffer.Holds page) (hk : k < page.records.length)
    (hstay : k + 1 = page.records.length → page.nextHeaderPageIdx = none) :
    getNextRecord file ⟨buffer, recordOffset k, k⟩ =
      .ok (some page.records[k], ⟨buffer, recordOffset (k + 1), k + 1⟩) := by
  have hnext : hasNextRecord ⟨buffer, recordOffset k, k⟩ = true := by
    rw [hasNextRecord_of_holds h]
    exact decide_eq_true hk
  have hrecord := h.records k page.records[k] (List.getElem?_eq_getElem hk)
  have hcond : ¬ (k + 1 = buffer.numRecords ∧ buffer.nextHeaderPageIdx ≠ nullPageIdx.toNat) := by
    rintro ⟨hlast, hne⟩
    rw [h.numRecords] at hlast
    rw [h.next, hstay hlast] at hne
    exact hne rfl
  rw [getNextRecord, if_pos hnext]
  simp only [HeaderBuffer.constructWALRecordFromBytes, hrecord, if_neg hcond]
  rfl

/-- The iterator goes on to the next page. -/
theorem getNextRecord_of_last {k n : ℕ} (h : buffer.Holds page)
    (hk : k + 1 = page.records.length) (hn : page.nextHeaderPageIdx = some n)
    (hlt : n < file.numPages) :
    getNextRecord file ⟨buffer, recordOffset k, k⟩ =
      .ok (page.records[k]?, ⟨file.pages n, recordOffset 0, 0⟩) := by
  have hk' : k < page.records.length := by omega
  have hnext : hasNextRecord ⟨buffer, recordOffset k, k⟩ = true := by
    rw [hasNextRecord_of_holds h]
    exact decide_eq_true hk'
  have hrecord := h.records k page.records[k] (List.getElem?_eq_getElem hk')
  have hidx : buffer.nextHeaderPageIdx = n := by
    rw [h.next, hn]
    rfl
  have hcond : k + 1 = buffer.numRecords ∧ buffer.nextHeaderPageIdx ≠ nullPageIdx.toNat :=
    ⟨by rw [h.numRecords, hk], by rw [hidx]; exact (h.next_lt n hn).ne⟩
  rw [getNextRecord, if_pos hnext]
  simp only [HeaderBuffer.constructWALRecordFromBytes, hrecord, if_pos hcond]
  rw [hidx, BufferFile.readPage, if_pos hlt, List.getElem?_eq_getElem hk']
  rfl

/-- Reading the rest of a header page that has no successor. -/
theorem reads_last (h : buffer.Holds page) (hnone : page.nextHeaderPageIdx = none) {k : ℕ}
    (hk : k ≤ page.records.length) :
    Reads file ⟨buffer, recordOffset k, k⟩ (page.records.drop k) := by
  induction hk using Nat.decreasingInduction with
  | self =>
      rw [List.drop_length]
      apply reads_end
      rw [hasNextRecord_of_holds h]
      exact decide_eq_false (Nat.lt_irrefl _)
  | of_succ k hk ih =>
      rw [List.drop_eq_getElem_cons hk]
      refine reads_next ?_ (getNextRecord_of_holds h hk fun _ ↦ hnone) ih
      rw [hasNextRecord_of_holds h]
      exact decide_eq_true hk

/-- Reading the rest of a header page and then its successor. -/
theorem reads_link {n : ℕ} {rest : List WALRecord} (h : buffer.Holds page)
    (hn : page.nextHeaderPageIdx = some n) (hlt : n < file.numPages)
    (hrest : Reads file ⟨file.pages n, recordOffset 0, 0⟩ rest) {k : ℕ}
    (hk : k < page.records.length) :
    Reads file ⟨buffer, recordOffset k, k⟩ (page.records.drop k ++ rest) := by
  obtain ⟨m, hm⟩ : ∃ m, page.records.length = k + 1 + m := ⟨page.records.length - (k + 1), by omega⟩
  have hnext : hasNextRecord ⟨buffer, recordOffset k, k⟩ = true := by
    rw [hasNextRecord_of_holds h]
    exact decide_eq_true hk
  induction m generalizing k with
  | zero =>
      have hget := getNextRecord_of_last h hm.symm hn hlt
      rw [List.getElem?_eq_getElem hk] at hget
      rw [List.drop_eq_getElem_cons hk, List.drop_eq_nil_of_le (by omega)]
      exact reads_next hnext hget hrest
  | succ m ih =>
      have hk' : k + 1 < page.records.length := by omega
      have hget : getNextRecord file ⟨buffer, recordOffset k, k⟩ = _ :=
        getNextRecord_of_holds h hk fun hlast ↦ by omega
      have hnext' : hasNextRecord ⟨buffer, recordOffset (k + 1), k + 1⟩ = true := by
        rw [hasNextRecord_of_holds h]
        exact decide_eq_true hk'
      rw [List.drop_eq_getElem_cons hk]
      exact reads_next hnext hget (ih hk' (by omega) hnext')

end BufferIterator

/-- Once the current header page is on disk too, all records are read. -/
theorem Refines.reads {page : HeaderPage} (h : Refines b wal closed)
    (hcur : wal.disk.pages wal.currentHeaderPageIdx = .header page)
    (hnone : page.nextHeaderPageIdx = none)
    (hlt : wal.currentHeaderPageIdx < wal.disk.numPages) :
    BufferIterator.Reads b.disk ⟨b.disk.pages 0, headerPagePrefixSize, 0⟩
      (closed.flatMap Prod.snd ++ page.records) := by
  have hread : ∀ entries, ClosedChain wal.disk wal.currentHeaderPageIdx entries →
      firstPage wal.currentHeaderPageIdx entries < b.disk.numPages ∧
      BufferIterator.Reads b.disk
        ⟨b.disk.pages (firstPage wal.currentHeaderPageIdx entries), recordOffset 0, 0⟩
        (entries.flatMap Prod.snd ++ page.records) := by
    intro entries hchain
    induction entries with
    | nil =>
        refine ⟨h.diskPages ▸ hlt, ?_⟩
        exact BufferIterator.reads_last (h.disk _ page hcur) hnone (Nat.zero_le _)
    | cons entry rest ih =>
        obtain ⟨hpage, hrecords, hp, hrest⟩ := hchain
        obtain ⟨hfirst, hreads⟩ := ih hrest
        refine ⟨h.diskPages ▸ hp, ?_⟩
        rw [List.flatMap_cons, List.append_assoc]
        exact BufferIterator.reads_link (h.disk _ _ hpage) rfl hfirst hreads
          (List.length_pos_of_ne_nil hrecords)
  have hall := (hread closed h.chained.chain).2
  rw [h.chained.first] at hall
  exact hall

/-! ## What has been logged -/

/-- The records have been logged, and took the pages that they need. -/
structure Logged (wal : WAL) (closed : List (ℕ × List WALRecord)) (logged : List WALRecord) :
    Prop where
  records : closed.flatMap Prod.snd ++ wal.currentHeaderPage.records = logged
  full : ∀ entry ∈ closed, entry.2.length = recordsPerHeaderPage
  current_le : wal.currentHeaderPage.records.length ≤ recordsPerHeaderPage
  current_ne : closed ≠ [] → wal.currentHeaderPage.records ≠ []
  numPages : wal.numPages = wal.dataPages.length + (closed.length + 1)
  commit : wal.isLastLoggedRecordCommit = logged.getLast?.any WALRecord.isCommit

/-- Nothing is written before a record is logged. -/
def Unwritten (wal : WAL) (logged : List WALRecord) : Prop :=
  logged = [] → wal.dataPages = [] ∧ wal.disk.numPages = 0

namespace Logged

theorem cleared : Logged WAL.cleared [] [] where
  records := rfl
  full := by simp
  current_le := Nat.zero_le _
  current_ne := fun h ↦ absurd rfl h
  numPages := rfl
  commit := rfl

theorem length_logged (h : Logged wal closed logged) :
    logged.length = recordsPerHeaderPage * closed.length +
      wal.currentHeaderPage.records.length := by
  rw [← h.records, List.length_append, List.length_flatMap]
  have hsum : (closed.map fun entry ↦ entry.2.length).sum =
      recordsPerHeaderPage * closed.length := by
    rw [List.map_congr_left h.full, List.map_const', List.sum_replicate_nat, Nat.mul_comm]
  rw [hsum]

theorem numPages_eq (h : Logged wal closed logged) :
    wal.numPages = numPagesFor wal.dataPages.length logged.length := by
  have hlength := h.length_logged
  have hle := h.current_le
  have hsize : recordsPerHeaderPage = 51 := by decide
  have hpos : closed.length = 0 ∨ 0 < wal.currentHeaderPage.records.length := by
    rcases closed with _ | ⟨entry, rest⟩
    · exact .inl rfl
    · exact .inr (List.length_pos_of_ne_nil (h.current_ne (by simp)))
  rw [h.numPages, numPagesFor]
  rw [hsize] at hlength hle ⊢
  omega

/-- Logging a record in a page with room for it. -/
theorem appendRecord (h : Logged wal closed logged) (record : WALRecord)
    (hroom : wal.currentHeaderPage.records.length < recordsPerHeaderPage) :
    Logged (wal.appendRecord record) closed (logged ++ [record]) where
  records := by
    show closed.flatMap Prod.snd ++ (wal.currentHeaderPage.records ++ [record]) = _
    rw [← List.append_assoc, h.records]
  full := h.full
  current_le := by
    show (wal.currentHeaderPage.records ++ [record]).length ≤ _
    rw [List.length_append, List.length_singleton]
    exact hroom
  current_ne := by
    show _ → wal.currentHeaderPage.records ++ [record] ≠ []
    simp
  numPages := h.numPages
  commit := by
    show record.isCommit = _
    rw [List.getLast?_concat]
    rfl

theorem offset_le_iff (wal : WAL) :
    wal.offsetInCurrentHeaderPage + walRecordSize > headerPageSize ↔
      recordsPerHeaderPage ≤ wal.currentHeaderPage.records.length := by
  have hsize : recordsPerHeaderPage = 51 := by decide
  simp only [WAL.offsetInCurrentHeaderPage, headerPagePrefixSize, walRecordSize,
    headerPageSize, hsize]
  omega

theorem addNewWALRecord (h : Logged wal closed logged) (record : WALRecord) :
    Logged (wal.addNewWALRecord record) (wal.closedWithRoom closed) (logged ++ [record]) := by
  rw [WAL.addNewWALRecord, WAL.closedWithRoom, WAL.addHeaderPageIfNecessary]
  by_cases hfull : wal.offsetInCurrentHeaderPage + walRecordSize > headerPageSize
  · have hlength := (offset_le_iff wal).mp hfull
    rw [if_pos hfull, if_pos hfull]
    -- The page that is full is closed with all its records.
    exact {
      records := by
        show (closed ++ [(wal.currentHeaderPageIdx, wal.currentHeaderPage.records)]).flatMap
          Prod.snd ++ [record] = _
        rw [List.flatMap_append, List.flatMap_singleton, h.records]
      full := by
        intro entry hentry
        rcases List.mem_append.mp hentry with hentry | hentry
        · exact h.full entry hentry
        · rw [List.mem_singleton.mp hentry]
          exact Nat.le_antisymm h.current_le hlength
      current_le := by
        show 1 ≤ recordsPerHeaderPage
        decide
      current_ne := by
        show _ → [record] ≠ []
        simp
      numPages := by
        show wal.numPages + 1 = wal.dataPages.length + ((closed ++ [_]).length + 1)
        rw [h.numPages, List.length_append, List.length_singleton]
        omega
      commit := by
        show record.isCommit = _
        rw [List.getLast?_concat]
        rfl }
  · rw [if_neg hfull, if_neg hfull]
    exact h.appendRecord record (Nat.not_le.mp fun hle ↦ hfull ((offset_le_iff wal).mpr hle))

theorem addDataPage (h : Logged wal closed logged) : Logged wal.addDataPage closed logged :=
  { h with
    numPages := by
      show wal.numPages + 1 = (wal.dataPages ++ [wal.numPages]).length + (closed.length + 1)
      rw [h.numPages, List.length_append, List.length_singleton]
      omega }

/-- Writing pages changes nothing but the disk. -/
theorem onDisk (h : Logged wal closed logged) (disk : FileImage) :
    Logged { wal with disk := disk } closed logged :=
  { h with }

theorem flushHeaderPages (h : Logged wal closed logged) :
    Logged wal.flushHeaderPages closed logged := by
  rw [WAL.flushHeaderPages]
  split_ifs with hempty
  · exact h
  · exact h.onDisk _

theorem isEmptyWAL_iff (hchained : Chained wal closed) (h : Logged wal closed logged) :
    wal.isEmptyWAL = true ↔ logged = [] := by
  have hidx : wal.currentHeaderPage.records = [] → wal.currentHeaderPageIdx = 0 := by
    intro hnil
    rcases closed with _ | ⟨entry, rest⟩
    · exact hchained.first
    · exact absurd hnil (h.current_ne (by simp))
  have hclosed : wal.currentHeaderPage.records = [] → closed = [] := fun hnil ↦
    Classical.byContradiction fun hne ↦ h.current_ne hne hnil
  rw [WAL.isEmptyWAL, decide_eq_true_iff, ← h.records, List.append_eq_nil_iff]
  constructor
  · rintro ⟨-, hnil⟩
    rw [hclosed hnil]
    exact ⟨rfl, hnil⟩
  · rintro ⟨-, hnil⟩
    exact ⟨hidx hnil, hnil⟩

end Logged

/-! ## One step -/

theorem numPagesFor_le {d d' n n' : ℕ} (hd : d ≤ d') (hn : n ≤ n') :
    numPagesFor d n ≤ numPagesFor d' n' := by
  have hdiv : (n + (recordsPerHeaderPage - 1)) / recordsPerHeaderPage ≤
      (n' + (recordsPerHeaderPage - 1)) / recordsPerHeaderPage :=
    Nat.div_le_div_right (Nat.add_le_add_right hn _)
  rw [numPagesFor, numPagesFor]
  omega

theorem length_loggedBy (b : BufferedWAL) (s : LogStep) : (b.loggedBy s).length = s.numRecords := by
  cases s <;> rfl

/-- What is known about a WAL while it is logged to. -/
structure Logging (b : BufferedWAL) (numDataPages : ℕ) (logged : List WALRecord) (wal : WAL)
    (closed : List (ℕ × List WALRecord)) : Prop where
  refines : Refines b wal closed
  unwritten : Unwritten wal logged
  logged : Logged wal closed logged
  dataPages : wal.dataPages.length = numDataPages

theorem logging_addNewWALRecord (hrefines : Refines b wal closed) (h : Logged wal closed logged)
    (record : WALRecord) (hfits : numPagesFor wal.dataPages.length (logged.length + 1) < 2 ^ 32) :
    Logging (b.addNewWALRecord record) wal.dataPages.length (logged ++ [record])
      (wal.addNewWALRecord record) (wal.closedWithRoom closed) := by
  have hlogged := h.addNewWALRecord record
  have hdata : (wal.addNewWALRecord record).dataPages.length = wal.dataPages.length := by
    rw [WAL.addNewWALRecord, WAL.addHeaderPageIfNecessary]
    split_ifs <;> rfl
  have hnum := hlogged.numPages_eq
  rw [hdata, List.length_append, List.length_singleton] at hnum
  exact ⟨hrefines.addNewWALRecord record (hnum ▸ hfits), by simp [Unwritten], hlogged, hdata⟩

theorem logging_logPage (hrefines : Refines b wal closed) (h : Logged wal closed logged)
    (record : WALRecord)
    (hfits : numPagesFor (wal.dataPages.length + 1) (logged.length + 1) < 2 ^ 32) :
    Logging (b.addDataPage.addNewWALRecord record) (wal.dataPages.length + 1) (logged ++ [record])
      (wal.addDataPage.addNewWALRecord record) (wal.addDataPage.closedWithRoom closed) := by
  have hdata : wal.addDataPage.dataPages.length = wal.dataPages.length + 1 := by
    rw [WAL.addDataPage, List.length_append, List.length_singleton]
  have hnum := h.addDataPage.numPages_eq
  rw [hdata] at hnum
  have hle := numPagesFor_le (Nat.le_refl (wal.dataPages.length + 1))
    (Nat.le_add_right logged.length 1)
  have hrefines' := hrefines.addDataPage (by omega)
  rw [← hdata] at hfits ⊢
  exact logging_addNewWALRecord hrefines' h.addDataPage record hfits

theorem Logging.step {d : ℕ} (h : Logging b d logged wal closed) (hstep : b.step s = some b')
    (hfits : numPagesFor (d + s.numDataPages) (logged.length + s.numRecords) < 2 ^ 32) :
    ∃ wal' closed', Logging b' (d + s.numDataPages) (logged ++ b.loggedBy s) wal' closed' := by
  cases s with
  | log record =>
      obtain rfl := Option.some.inj hstep
      obtain rfl := h.dataPages
      exact ⟨_, _, logging_addNewWALRecord h.refines h.logged record hfits⟩
  | logPage storageStructureID pageIdxInOriginalFile isInsert =>
      obtain rfl := Option.some.inj hstep
      obtain rfl := h.dataPages
      exact ⟨_, _, logging_logPage h.refines h.logged _ hfits⟩
  | writeDataPage pageIdx contents =>
      simp only [BufferedWAL.step] at hstep
      split_ifs at hstep with hmem
      obtain rfl := Option.some.inj hstep
      rw [h.refines.dataPages] at hmem
      simp only [BufferedWAL.loggedBy, List.append_nil]
      refine ⟨_, _, h.refines.writeDataPage hmem, fun hnil ↦ ?_, h.logged.onDisk _, h.dataPages⟩
      rw [(h.unwritten hnil).1] at hmem
      simp at hmem
  | flushHeaderPages =>
      obtain rfl := Option.some.inj hstep
      simp only [BufferedWAL.loggedBy, List.append_nil]
      refine ⟨_, _, h.refines.flushHeaderPages, ?_, h.logged.flushHeaderPages, ?_⟩
      · intro hnil
        have hempty := (Logged.isEmptyWAL_iff h.refines.chained h.logged).mpr hnil
        rw [WAL.flushHeaderPages, if_pos hempty]
        exact h.unwritten hnil
      · rw [← h.dataPages, WAL.flushHeaderPages]
        split_ifs <;> rfl

/-! ## Runs -/

theorem logging_fresh : Logging BufferedWAL.fresh 0 [] WAL.cleared [] :=
  ⟨Refines.fresh, fun _ ↦ ⟨rfl, rfl⟩, Logged.cleared, rfl⟩

theorem Logging.run {d : ℕ} (h : Logging b d logged wal closed)
    (hrun : Lib.run BufferedWAL.step b steps = some b')
    (hfits : numPagesFor (d + (steps.map LogStep.numDataPages).sum)
      (logged.length + (steps.map LogStep.numRecords).sum) < 2 ^ 32) :
    ∃ d' wal' closed', Logging b' d' (logged ++ b.loggedAlong steps) wal' closed' := by
  induction steps generalizing b d logged wal closed with
  | nil =>
      obtain rfl : b = b' := by simpa using hrun
      simp only [BufferedWAL.loggedAlong, List.append_nil]
      exact ⟨_, _, _, h⟩
  | cons s steps ih =>
      obtain ⟨b₁, hstep, hrun⟩ := Lib.run_cons_eq_some_iff.mp hrun
      simp only [List.map_cons, List.sum_cons] at hfits
      rw [← Nat.add_assoc, ← Nat.add_assoc] at hfits
      have hle := numPagesFor_le
        (Nat.le_add_right (d + s.numDataPages) (steps.map LogStep.numDataPages).sum)
        (Nat.le_add_right (logged.length + s.numRecords) (steps.map LogStep.numRecords).sum)
      obtain ⟨wal₁, closed₁, h₁⟩ := h.step hstep (Nat.lt_of_le_of_lt hle hfits)
      have hlength : (logged ++ b.loggedBy s).length = logged.length + s.numRecords := by
        rw [List.length_append, length_loggedBy]
      rw [← hlength] at hfits
      simp only [BufferedWAL.loggedAlong, hstep]
      rw [← List.append_assoc]
      exact ih h₁ hrun hfits

/-! ## Flushing -/

/-- The current header page is on disk. -/
structure Flushed (b : BufferedWAL) (wal : WAL) (closed : List (ℕ × List WALRecord))
    (logged : List WALRecord) : Prop where
  refines : Refines b wal closed
  current : wal.disk.pages wal.currentHeaderPageIdx = .header wal.currentHeaderPage
  current_lt : wal.currentHeaderPageIdx < wal.disk.numPages
  logged : Logged wal closed logged

theorem Flushed.writeDataPage {p : ℕ} {contents : HeaderBuffer} (h : Flushed b wal closed logged)
    (hp : p ∈ wal.dataPages) :
    Flushed (b.writeDataPage p contents) (wal.writeDataPage p {}) closed logged where
  refines := h.refines.writeDataPage hp
  current := by
    have hne : wal.currentHeaderPageIdx ≠ p := by
      rintro rfl
      exact h.refines.chained.disjoint _ hp (by simp [headerPages])
    show Function.update wal.disk.pages p _ wal.currentHeaderPageIdx = _
    rw [Function.update_of_ne hne, h.current]
    rfl
  current_lt := h.current_lt.trans_le (Nat.le_max_left _ _)
  logged := h.logged.onDisk _

theorem Flushed.writeDataPages {dirty : List (ℕ × HeaderBuffer)} (h : Flushed b wal closed logged)
    (hdirty : ∀ page ∈ dirty, page.1 ∈ wal.dataPages) :
    ∃ wal', Flushed (dirty.foldl (fun b page ↦ b.writeDataPage page.1 page.2) b) wal' closed
      logged := by
  induction dirty generalizing b wal with
  | nil => exact ⟨wal, h⟩
  | cons page dirty ih =>
      have hwrite : Flushed (b.writeDataPage page.1 page.2) _ closed logged :=
        h.writeDataPage (hdirty page List.mem_cons_self)
      exact ih hwrite fun page' hpage' ↦ hdirty page' (List.mem_cons_of_mem _ hpage')

theorem Logging.flushed {d : ℕ} (h : Logging b d logged wal closed) (hne : logged ≠ []) :
    Flushed b.flushHeaderPages wal.flushHeaderPages closed logged := by
  have hempty : ¬ wal.isEmptyWAL = true := fun hempty ↦
    hne ((Logged.isEmptyWAL_iff h.refines.chained h.logged).mp hempty)
  refine ⟨h.refines.flushHeaderPages, ?_, ?_, h.logged.flushHeaderPages⟩
  · rw [WAL.flushHeaderPages, if_neg hempty]
    exact Function.update_self _ _ _
  · rw [WAL.flushHeaderPages, if_neg hempty]
    exact Nat.lt_of_lt_of_le (Nat.lt_succ_self _) (Nat.le_max_right _ _)

theorem getLast?_any_isCommit (logged : List WALRecord) :
    logged.getLast?.any WALRecord.isCommit = true ↔
      ∃ record, logged.getLast? = some record ∧ record.isCommit = true := by
  rw [Option.any_eq_true]

theorem Refines.pages_nodup (h : Refines b wal closed) : (b.headerPages ++ b.dataPages).Nodup := by
  rw [h.headerPages, h.dataPages, List.nodup_append]
  refine ⟨h.chained.nodup, h.nodup, ?_⟩
  rintro p hp q hq rfl
  exact h.chained.disjoint p hq hp

/-- The bit that is found when the records are read. -/
theorem openFile_of_reads (hreads : ∃ it, BufferIterator.new file file.numPages = .ok it ∧
      it.Reads file logged) (hpos : 0 < file.numPages) :
    ∃ fuel, BufferedWAL.openFile fuel file =
      some (.ok (logged.getLast?.any WALRecord.isCommit)) := by
  obtain ⟨it, hnew, fuel, hfuel⟩ := hreads
  refine ⟨fuel, ?_⟩
  rw [BufferedWAL.openFile, if_neg hpos.ne', hnew]
  simp only [hfuel, Option.map_some, Except.map, List.getLast?_map]
  cases logged.getLast? <;> rfl

/-- An iterator is opened on a file that has pages. -/
theorem BufferIterator.new_eq_ok {n : ℕ} (hn : 0 < n) (hpos : 0 < file.numPages) :
    BufferIterator.new file n = .ok ⟨file.pages 0, headerPagePrefixSize, 0⟩ := by
  rw [BufferIterator.new, if_pos hn, BufferFile.readPage, if_pos hpos]
  rfl

theorem Flushed.roundTrips (h : Flushed b wal closed logged) : RoundTrips b logged := by
  have hdisk : 0 < b.disk.numPages := by
    rw [h.refines.diskPages]
    exact Nat.zero_lt_of_lt h.current_lt
  have hhandle : 0 < b.numPages := by
    rw [h.refines.numPages, h.logged.numPages]
    omega
  have hreads := h.refines.reads h.current h.refines.chained.next_none h.current_lt
  rw [h.logged.records] at hreads
  have hnew : ∀ n, 0 < n → ∃ it, BufferIterator.new b.disk n = .ok it ∧ it.Reads b.disk logged :=
    fun n hn ↦ ⟨_, BufferIterator.new_eq_ok hn hdisk, hreads⟩
  have hcommit := getLast?_any_isCommit logged
  refine ⟨hnew _ hhandle, hnew _ hdisk, h.refines.pages_nodup, ?_, ?_⟩
  · rw [h.refines.commit, h.logged.commit]
    exact hcommit
  · obtain ⟨fuel, hfuel⟩ := openFile_of_reads (hnew _ hdisk) hdisk
    exact ⟨fuel, _, hfuel, hcommit⟩

/-- Nothing has been logged, and the file is empty. -/
theorem Logging.roundTrips_nil {d : ℕ} (h : Logging b d [] wal closed) : RoundTrips b [] := by
  have hdisk : b.disk.numPages = 0 := by
    rw [h.refines.diskPages]
    exact (h.unwritten rfl).2
  have hnew : ∀ n, ∃ it, BufferIterator.new b.disk n = .ok it ∧ it.Reads b.disk [] := by
    intro n
    refine ⟨⟨HeaderBuffer.resetCurrentHeaderPagePrefix {}, headerPagePrefixSize, 0⟩, ?_,
      BufferIterator.reads_end rfl⟩
    rw [BufferIterator.new, BufferFile.readPage, hdisk, if_neg (Nat.lt_irrefl 0), if_pos rfl]
    split_ifs <;> rfl
  have hcommit := getLast?_any_isCommit []
  refine ⟨hnew _, hnew _, h.refines.pages_nodup, ?_, 0, false, ?_, hcommit⟩
  · rw [h.refines.commit, h.logged.commit]
    exact hcommit
  · rw [BufferedWAL.openFile, if_pos hdisk]

/-- What is logged into a new WAL is read back if its pages have indices below the null pointer. -/
theorem roundTrips_flushAllPages {dirty : List (ℕ × HeaderBuffer)}
    (hrun : Lib.run BufferedWAL.step BufferedWAL.fresh steps = some b)
    (hdirty : ∀ page ∈ dirty, page.1 ∈ b.dataPages) (hfits : numPagesNeeded steps < 2 ^ 32) :
    RoundTrips (b.flushAllPages dirty) (BufferedWAL.fresh.loggedAlong steps) := by
  have hfits' : numPagesFor (0 + (steps.map LogStep.numDataPages).sum)
      (([] : List WALRecord).length + (steps.map LogStep.numRecords).sum) < 2 ^ 32 := by
    rw [Nat.zero_add, List.length_nil, Nat.zero_add]
    exact hfits
  obtain ⟨d, wal, closed, h⟩ := logging_fresh.run hrun hfits'
  rw [List.nil_append] at h
  have hempty := Logged.isEmptyWAL_iff h.refines.chained h.logged
  rw [BufferedWAL.flushAllPages, h.refines.isEmptyWAL]
  by_cases hnil : BufferedWAL.fresh.loggedAlong steps = []
  · rw [if_pos (hempty.mpr hnil)]
    rw [hnil] at h ⊢
    exact h.roundTrips_nil
  · rw [if_neg fun h' ↦ hnil (hempty.mp h')]
    have hflushed := h.flushed hnil
    have hdirty' : ∀ page ∈ dirty, page.1 ∈ wal.flushHeaderPages.dataPages := by
      intro page hpage
      have hmem := hdirty page hpage
      rw [h.refines.dataPages] at hmem
      rw [WAL.flushHeaderPages]
      split_ifs <;> exact hmem
    obtain ⟨wal', h'⟩ := hflushed.writeDataPages hdirty'
    exact h'.roundTrips

/-- A page is updated, evicted before the commit and flushed again. -/
theorem roundTrips_flushAllPages_pageAndCommit :
    ∃ b, Lib.run BufferedWAL.step BufferedWAL.fresh
        [.logPage ⟨.nodeIndex 0, false⟩ 3 false, .writeDataPage 1 {}, .log (.commit 7)] = some b ∧
      RoundTrips (b.flushAllPages [(1, {})])
        [.pageUpdateOrInsert ⟨.nodeIndex 0, false⟩ 3 1 false, .commit 7] := by
  obtain ⟨b, hb, hdata⟩ : ∃ b, Lib.run BufferedWAL.step BufferedWAL.fresh
      [.logPage ⟨.nodeIndex 0, false⟩ 3 false, .writeDataPage 1 {}, .log (.commit 7)] = some b ∧
        b.dataPages = [1] := ⟨_, rfl, rfl⟩
  have hdirty : ∀ page ∈ [((1 : ℕ), ({} : HeaderBuffer))], page.1 ∈ b.dataPages := by
    simp [hdata]
  exact ⟨b, hb, roundTrips_flushAllPages hb hdirty (by decide)⟩

/-! ## Too many pages -/

/-- The indices that are handed out have 32 bits. -/
def PagesBelow (b : BufferedWAL) : Prop :=
  b.numPages < 2 ^ 32 ∧ ∀ p ∈ b.headerPages ++ b.dataPages, p < 2 ^ 32

theorem PagesBelow.addNewWALRecord (h : PagesBelow b) (record : WALRecord) :
    PagesBelow (b.addNewWALRecord record) := by
  rw [BufferedWAL.addNewWALRecord, BufferedWAL.addHeaderPageIfNecessary]
  split_ifs with hfull
  · refine ⟨Nat.mod_lt _ (by decide), ?_⟩
    show ∀ p ∈ (b.headerPages ++ [b.numPages]) ++ b.dataPages, p < 2 ^ 32
    intro p hp
    rw [List.mem_append, List.mem_append, List.mem_singleton] at hp
    rcases hp with (hp | rfl) | hp
    · exact h.2 p (List.mem_append_left _ hp)
    · exact h.1
    · exact h.2 p (List.mem_append_right _ hp)
  · exact h

theorem PagesBelow.addDataPage (h : PagesBelow b) : PagesBelow b.addDataPage := by
  refine ⟨Nat.mod_lt _ (by decide), ?_⟩
  show ∀ p ∈ b.headerPages ++ (b.dataPages ++ [b.numPages]), p < 2 ^ 32
  intro p hp
  rw [← List.append_assoc, List.mem_append, List.mem_singleton] at hp
  rcases hp with hp | rfl
  · exact h.2 p hp
  · exact h.1

theorem length_headerPages_addNewWALRecord (b : BufferedWAL) (record : WALRecord) :
    b.headerPages.length ≤ (b.addNewWALRecord record).headerPages.length ∧
      (b.addNewWALRecord record).dataPages = b.dataPages := by
  rw [BufferedWAL.addNewWALRecord, BufferedWAL.addHeaderPageIfNecessary]
  split_ifs with hfull
  · refine ⟨?_, rfl⟩
    show b.headerPages.length ≤ (b.headerPages ++ [b.numPages]).length
    simp
  · exact ⟨Nat.le_refl _, rfl⟩

/-- Logging page after page. -/
theorem exists_run_logPages (n : ℕ) (storageStructureID : StorageStructureID) :
    ∃ b, Lib.run BufferedWAL.step BufferedWAL.fresh
        (List.replicate n (.logPage storageStructureID 0 false)) = some b ∧
      PagesBelow b ∧ 1 ≤ b.headerPages.length ∧ b.dataPages.length = n := by
  induction n with
  | zero =>
      refine ⟨BufferedWAL.fresh, rfl, ⟨by decide, ?_⟩, Nat.le_refl _, rfl⟩
      simp [BufferedWAL.fresh]
  | succ n ih =>
      obtain ⟨b, hrun, hbelow, hheader, hdata⟩ := ih
      rw [List.replicate_succ']
      refine ⟨_, Lib.run_concat_of_eq_some hrun rfl, hbelow.addDataPage.addNewWALRecord _, ?_, ?_⟩
      · exact hheader.trans (length_headerPages_addNewWALRecord b.addDataPage _).1
      · rw [(length_headerPages_addNewWALRecord b.addDataPage _).2, BufferedWAL.addDataPage,
          ← hdata]
        exact List.length_append

/-- When 2 ^ 32 pages have been logged, some page has been handed out twice. -/
theorem not_roundTrips_tooManyPages :
    ¬ ∀ (steps : List LogStep) (dirty : List (ℕ × HeaderBuffer)) (b : BufferedWAL),
      Lib.run BufferedWAL.step BufferedWAL.fresh steps = some b →
      (∀ page ∈ dirty, page.1 ∈ b.dataPages) →
      RoundTrips (b.flushAllPages dirty) (BufferedWAL.fresh.loggedAlong steps) := by
  intro hall
  obtain ⟨b, hrun, hbelow, hheader, hdata⟩ := exists_run_logPages (2 ^ 32) ⟨.nodeIndex 0, false⟩
  have hpages := (hall _ [] b hrun (by simp)).pages
  have hsame : (b.flushAllPages []).headerPages = b.headerPages ∧
      (b.flushAllPages []).dataPages = b.dataPages := by
    rw [BufferedWAL.flushAllPages, BufferedWAL.flushHeaderPages]
    split_ifs <;> exact ⟨rfl, rfl⟩
  rw [hsame.1, hsame.2] at hpages
  have hsub : b.headerPages ++ b.dataPages ⊆ List.range (2 ^ 32) :=
    fun p hp ↦ List.mem_range.mpr (hbelow.2 p hp)
  have hlength := (List.subperm_of_subset hpages hsub).length_le
  rw [List.length_append, List.length_range, hdata] at hlength
  omega

end Graphflow.Wal
