import Graphflow.Wal.File

/-!
# Opening the WAL after a crash

At every moment the header pages that have been closed are on disk, each with a pointer to the next
one, and the last of them points to the current header page, which may never have been written.
Opening is safe exactly when that pointer does not lead to the end of the file or behind it: at the
end the last header page is read again and again, behind it `readFromFile` throws.
-/

namespace Graphflow.Wal

variable {disk disk' : FileImage} {cur cur' p : ℕ} {closed : List (ℕ × List WALRecord)}
  {records : List WALRecord} {wal wal' : WAL}

/-- The first page of a chain of closed header pages that ends at the current one. -/
def firstPage (cur : ℕ) : List (ℕ × List WALRecord) → ℕ
  | [] => cur
  | (p, _) :: _ => p

/-- The closed header pages are on disk and linked to each other and to the current one. -/
def ClosedChain (disk : FileImage) (cur : ℕ) : List (ℕ × List WALRecord) → Prop
  | [] => True
  | (p, records) :: rest =>
      disk.pages p = .header ⟨records, some (firstPage cur rest)⟩ ∧ records ≠ [] ∧
        p < disk.numPages ∧ ClosedChain disk cur rest

/-- The pages of the closed header pages and of the current one. -/
def headerPages (cur : ℕ) (closed : List (ℕ × List WALRecord)) : List ℕ :=
  closed.map Prod.fst ++ [cur]

/-- The invariant of logging, evicting and flushing. -/
structure Chained (wal : WAL) (closed : List (ℕ × List WALRecord)) : Prop where
  chain : ClosedChain wal.disk wal.currentHeaderPageIdx closed
  first : firstPage wal.currentHeaderPageIdx closed = 0
  next_none : wal.currentHeaderPage.nextHeaderPageIdx = none
  current : wal.disk.pages wal.currentHeaderPageIdx = .hole ∨
    ∃ records, wal.disk.pages wal.currentHeaderPageIdx = .header ⟨records, none⟩
  nodup : (headerPages wal.currentHeaderPageIdx closed).Nodup
  headers_lt : ∀ p ∈ headerPages wal.currentHeaderPageIdx closed, p < wal.numPages
  data_lt : ∀ p ∈ wal.dataPages, p < wal.numPages
  disjoint : ∀ p ∈ wal.dataPages, p ∉ headerPages wal.currentHeaderPageIdx closed
  only_headers : ∀ p page, wal.disk.pages p = .header page →
    p ∈ headerPages wal.currentHeaderPageIdx closed
  beyond : ∀ p, wal.disk.numPages ≤ p → wal.disk.pages p = .hole
  disk_le : wal.disk.numPages ≤ wal.numPages

/-! ## Chains -/

theorem ClosedChain.congr (hchain : ClosedChain disk cur closed)
    (hpages : ∀ p ∈ closed.map Prod.fst, disk'.pages p = disk.pages p)
    (hnum : disk.numPages ≤ disk'.numPages) : ClosedChain disk' cur closed := by
  induction closed with
  | nil => trivial
  | cons entry rest ih =>
      obtain ⟨hpage, hrecords, hlt, hrest⟩ := hchain
      refine ⟨?_, hrecords, Nat.lt_of_lt_of_le hlt hnum, ih hrest ?_⟩
      · rw [hpages _ List.mem_cons_self, hpage]
      · exact fun q hq ↦ hpages q (List.mem_cons_of_mem _ hq)

/-- The current header page is closed and linked to a new one. -/
theorem ClosedChain.append (hchain : ClosedChain disk cur closed)
    (hpages : ∀ p ∈ closed.map Prod.fst, disk'.pages p = disk.pages p)
    (hnum : disk.numPages ≤ disk'.numPages)
    (hcur : disk'.pages cur = .header ⟨records, some cur'⟩) (hrecords : records ≠ [])
    (hlt : cur < disk'.numPages) : ClosedChain disk' cur' (closed ++ [(cur, records)]) := by
  induction closed with
  | nil => exact ⟨hcur, hrecords, hlt, trivial⟩
  | cons entry rest ih =>
      obtain ⟨hpage, hrecords', hlt', hrest⟩ := hchain
      refine ⟨?_, hrecords', Nat.lt_of_lt_of_le hlt' hnum, ih hrest ?_⟩
      · rw [hpages _ List.mem_cons_self, hpage]
        cases rest <;> rfl
      · exact fun q hq ↦ hpages q (List.mem_cons_of_mem _ hq)

theorem firstPage_append : firstPage cur' (closed ++ [(cur, records)]) = firstPage cur closed := by
  cases closed <;> rfl

theorem headerPages_append :
    headerPages cur' (closed ++ [(cur, records)]) = headerPages cur closed ++ [cur'] := by
  simp [headerPages]

/-! ## The steps -/

theorem chained_cleared : Chained WAL.cleared [] where
  chain := trivial
  first := rfl
  next_none := rfl
  current := .inl rfl
  nodup := by simp [headerPages]
  headers_lt := by simp [headerPages, WAL.cleared]
  data_lt := by simp [WAL.cleared]
  disjoint := by simp [WAL.cleared]
  only_headers := by simp [WAL.cleared]
  beyond := fun _ _ ↦ rfl
  disk_le := Nat.zero_le _

theorem Chained.appendRecord (h : Chained wal closed) (record : WALRecord) :
    Chained (wal.appendRecord record) closed :=
  ⟨h.chain, h.first, h.next_none, h.current, h.nodup, h.headers_lt, h.data_lt, h.disjoint,
    h.only_headers, h.beyond, h.disk_le⟩

theorem Chained.addDataPage (h : Chained wal closed) : Chained wal.addDataPage closed := by
  refine ⟨h.chain, h.first, h.next_none, h.current, h.nodup, ?_, ?_, ?_, h.only_headers, h.beyond,
    h.disk_le.trans (Nat.le_succ _)⟩
  · exact fun q hq ↦ Nat.lt_succ_of_lt (h.headers_lt q hq)
  · intro q hq
    rcases List.mem_append.mp hq with hq | hq
    · exact Nat.lt_succ_of_lt (h.data_lt q hq)
    · rw [List.mem_singleton.mp hq]
      exact Nat.lt_succ_self _
  · intro q hq
    rcases List.mem_append.mp hq with hq | hq
    · exact h.disjoint q hq
    · rw [List.mem_singleton.mp hq]
      exact fun hmem ↦ absurd (h.headers_lt _ hmem) (Nat.lt_irrefl _)

/-- A page may be written to disk if it is neither behind the end of the file handle nor a closed
header page. -/
theorem Chained.write (h : Chained wal closed) {page : FilePage}
    (hp : p < wal.numPages) (hclosed : p ∉ closed.map Prod.fst)
    (hcur : p = wal.currentHeaderPageIdx → ∃ records, page = .header ⟨records, none⟩)
    (hother : p ≠ wal.currentHeaderPageIdx → ∀ header, page ≠ .header header) :
    Chained { wal with disk := wal.disk.writePage p page } closed := by
  have hpages : ∀ q ≠ p, (wal.disk.writePage p page).pages q = wal.disk.pages q :=
    fun q hq ↦ Function.update_of_ne hq _ _
  have hself : (wal.disk.writePage p page).pages p = page := Function.update_self _ _ _
  refine ⟨h.chain.congr (fun q hq ↦ hpages q ?_) (Nat.le_max_left _ _), h.first, h.next_none, ?_,
    h.nodup, h.headers_lt, h.data_lt, h.disjoint, ?_, ?_, ?_⟩
  · rintro rfl
    exact hclosed hq
  · by_cases heq : wal.currentHeaderPageIdx = p
    · obtain ⟨records, rfl⟩ := hcur heq.symm
      exact .inr ⟨records, by simp only [heq, hself]⟩
    · simp only [hpages _ heq]
      exact h.current
  · intro q header hq
    by_cases hqp : q = p
    · subst hqp
      by_cases heq : q = wal.currentHeaderPageIdx
      · simp [headerPages, heq]
      · exact absurd (hself.symm.trans hq) (hother heq header)
    · simp only [hpages q hqp] at hq
      exact h.only_headers q header hq
  · intro q hq
    have hle : wal.disk.numPages ≤ q := (Nat.le_max_left _ _).trans hq
    have hqp : q ≠ p := by
      rintro rfl
      exact absurd ((Nat.le_max_right _ _).trans hq) (Nat.not_succ_le_self q)
    simp only [hpages q hqp]
    exact h.beyond q hle
  · exact Nat.max_le.mpr ⟨h.disk_le, hp⟩

/-- The closed header pages once there is room for one more record. -/
def WAL.closedWithRoom (wal : WAL) (closed : List (ℕ × List WALRecord)) :
    List (ℕ × List WALRecord) :=
  if wal.offsetInCurrentHeaderPage + walRecordSize > headerPageSize then
    closed ++ [(wal.currentHeaderPageIdx, wal.currentHeaderPage.records)]
  else closed

theorem Chained.addHeaderPageIfNecessary (h : Chained wal closed) :
    Chained wal.addHeaderPageIfNecessary (wal.closedWithRoom closed) := by
  by_cases hfull : wal.offsetInCurrentHeaderPage + walRecordSize > headerPageSize
  · simp only [WAL.addHeaderPageIfNecessary, WAL.closedWithRoom, hfull, if_true]
    have hnodup := h.nodup
    rw [headerPages, List.nodup_append] at hnodup
    have hcur : wal.currentHeaderPageIdx ∉ closed.map Prod.fst :=
      fun hmem ↦ hnodup.2.2 _ hmem _ (List.mem_singleton.mpr rfl) rfl
    have hcurlt : wal.currentHeaderPageIdx < wal.numPages := h.headers_lt _ (by simp [headerPages])
    have hrecords : wal.currentHeaderPage.records ≠ [] := by
      intro hnil
      simp [WAL.offsetInCurrentHeaderPage, hnil, headerPagePrefixSize, walRecordSize,
        headerPageSize] at hfull
    have hnew : wal.numPages ∉ headerPages wal.currentHeaderPageIdx closed :=
      fun hmem ↦ absurd (h.headers_lt _ hmem) (Nat.lt_irrefl _)
    have hpages : ∀ q page, q ≠ wal.currentHeaderPageIdx →
        (wal.disk.writePage wal.currentHeaderPageIdx page).pages q = wal.disk.pages q :=
      fun q _ hq ↦ Function.update_of_ne hq _ _
    refine ⟨?_, ?_, rfl, ?_, ?_, ?_, ?_, ?_, ?_, ?_, ?_⟩
    · refine h.chain.append (fun q hq ↦ hpages q _ ?_) (Nat.le_max_left _ _)
        (Function.update_self _ _ _) hrecords (Nat.lt_of_lt_of_le (Nat.lt_succ_self _)
          (Nat.le_max_right _ _))
      rintro rfl
      exact hcur hq
    · exact firstPage_append.trans h.first
    · refine .inl ?_
      simp only [hpages wal.numPages _ hcurlt.ne']
      exact h.beyond _ h.disk_le
    · rw [headerPages_append]
      simpa using List.Nodup.concat hnew h.nodup
    · intro q hq
      rw [headerPages_append, List.mem_append, List.mem_singleton] at hq
      rcases hq with hq | rfl
      · exact Nat.lt_succ_of_lt (h.headers_lt q hq)
      · exact Nat.lt_succ_self _
    · exact fun q hq ↦ Nat.lt_succ_of_lt (h.data_lt q hq)
    · intro q hq hmem
      rw [headerPages_append, List.mem_append, List.mem_singleton] at hmem
      rcases hmem with hmem | rfl
      · exact h.disjoint q hq hmem
      · exact absurd (h.data_lt _ hq) (Nat.lt_irrefl _)
    · intro q page hq
      rw [headerPages_append, List.mem_append]
      by_cases hqc : q = wal.currentHeaderPageIdx
      · exact .inl (by simp [headerPages, hqc])
      · simp only [hpages q _ hqc] at hq
        exact .inl (h.only_headers q page hq)
    · intro q hq
      have hle : wal.disk.numPages ≤ q := (Nat.le_max_left _ _).trans hq
      have hqc : q ≠ wal.currentHeaderPageIdx := by
        rintro rfl
        exact absurd ((Nat.le_max_right _ _).trans hq) (Nat.not_succ_le_self _)
      simp only [hpages q _ hqc]
      exact h.beyond q hle
    · exact (Nat.max_le.mpr ⟨h.disk_le, hcurlt⟩).trans (Nat.le_succ _)
  · simpa [WAL.addHeaderPageIfNecessary, WAL.closedWithRoom, hfull] using h

theorem Chained.addNewWALRecord (h : Chained wal closed) (record : WALRecord) :
    Chained (wal.addNewWALRecord record) (wal.closedWithRoom closed) :=
  h.addHeaderPageIfNecessary.appendRecord record

theorem Chained.flushHeaderPages (h : Chained wal closed) :
    Chained wal.flushHeaderPages closed := by
  rw [WAL.flushHeaderPages]
  split
  · exact h
  · have hnodup := h.nodup
    rw [headerPages, List.nodup_append] at hnodup
    refine h.write (h.headers_lt _ (by simp [headerPages])) ?_ ?_ fun hne ↦ absurd rfl hne
    · exact fun hmem ↦ hnodup.2.2 _ hmem _ (List.mem_singleton.mpr rfl) rfl
    · exact fun _ ↦ ⟨wal.currentHeaderPage.records, by rw [← h.next_none]⟩

theorem Chained.writeDataPage (h : Chained wal closed) {contents : HeaderPage}
    (hp : p ∈ wal.dataPages) : Chained (wal.writeDataPage p contents) closed := by
  have hnot := h.disjoint p hp
  rw [headerPages, List.mem_append, not_or, List.mem_singleton] at hnot
  exact h.write (h.data_lt p hp) hnot.1 (fun heq ↦ absurd heq hnot.2) (by simp)

def IsChained (wal : WAL) : Prop := ∃ closed, Chained wal closed

theorem isChained_step (wal : WAL) (s : WALStep) (wal' : WAL) (hchained : IsChained wal)
    (hstep : wal.step s = some wal') : IsChained wal' := by
  obtain ⟨closed, h⟩ := hchained
  cases s with
  | log record =>
      obtain rfl : wal.addNewWALRecord record = wal' := by simpa [WAL.step] using hstep
      exact ⟨_, h.addNewWALRecord record⟩
  | logPage storageStructureID pageIdxInOriginalFile isInsert =>
      simp only [WAL.step, Option.some.injEq] at hstep
      subst hstep
      exact ⟨_, h.addDataPage.addNewWALRecord _⟩
  | writeDataPage pageIdx contents =>
      simp only [WAL.step] at hstep
      split at hstep
      next hmem =>
        obtain rfl := Option.some.inj hstep
        exact ⟨closed, h.writeDataPage hmem⟩
      next => simp at hstep
  | flushHeaderPages =>
      obtain rfl : wal.flushHeaderPages = wal' := by simpa [WAL.step] using hstep
      exact ⟨closed, h.flushHeaderPages⟩

/-- The invariant holds in every state that the WAL can be in since it was last cleared. -/
theorem chained_of_run {steps : List WALStep}
    (hrun : Lib.run WAL.step WAL.cleared steps = some wal) : IsChained wal :=
  Lib.run_invariant isChained_step ⟨[], chained_cleared⟩ hrun

/-! ## Reading the chain back -/

namespace WALIterator

/-- Reading the rest of a header page that has no successor. -/
theorem readToEnd_last {k : ℕ} (hk : k ≤ records.length) (last : Option WALRecord) (fuel : ℕ) :
    readToEnd disk (fuel + 1 + (records.length - k)) ⟨⟨records, none⟩, k⟩ last =
      some (.ok ((records.drop k).getLast?.or last)) := by
  obtain ⟨n, hn⟩ : ∃ n, n = records.length - k := ⟨_, rfl⟩
  induction n generalizing k last with
  | zero =>
      have heq : k = records.length := by omega
      subst heq
      simp [readToEnd, hasNextRecord]
  | succ n ih =>
      have hlt : k < records.length := by omega
      have hfuel : fuel + 1 + (records.length - k) = fuel + 1 + (records.length - (k + 1)) + 1 := by
        omega
      have hrest := ih (k := k + 1) hlt (some records[k]) (by omega)
      have hdrop : (records.drop k).getLast?.or last =
          (records.drop (k + 1)).getLast?.or (some records[k]) := by
        rw [List.drop_eq_getElem_cons hlt, List.getLast?_cons]
        cases (records.drop (k + 1)).getLast? <;> rfl
      rw [hfuel, readToEnd, hdrop, ← hrest]
      simp [hasNextRecord, getNextRecord, hlt]

/-- Reading the rest of a header page up to its successor. -/
theorem readToEnd_link {k n : ℕ} (hk : k < records.length) (last : Option WALRecord) (fuel : ℕ)
    (hn : n < disk.numPages) :
    readToEnd disk (fuel + (records.length - k)) ⟨⟨records, some n⟩, k⟩ last =
      readToEnd disk fuel ⟨(disk.pages n).asHeaderPage, 0⟩ records.getLast? := by
  obtain ⟨m, hm⟩ : ∃ m, records.length = k + 1 + m := ⟨records.length - (k + 1), by omega⟩
  induction m generalizing k last with
  | zero =>
      have hfuel : fuel + (records.length - k) = fuel + 1 := by omega
      have hlast : records.getLast? = some records[k] := by
        rw [List.getLast?_eq_getElem?, show records.length - 1 = k by omega]
        simp [hk]
      rw [hfuel, readToEnd, hlast]
      simp [hasNextRecord, getNextRecord, hk, show k + 1 = records.length by omega,
        FileImage.readPage, hn]
  | succ m ih =>
      have hfuel : fuel + (records.length - k) = fuel + (records.length - (k + 1)) + 1 := by omega
      have hne : k + 1 ≠ records.length := by omega
      have hrest := ih (k := k + 1) (by omega) (some records[k]) (by omega)
      rw [hfuel, readToEnd, ← hrest]
      simp [hasNextRecord, getNextRecord, hk, hne]

/-- Once a pointer leads to the end of the file or behind it, reading does not come to an end, or
ends with an exception. -/
theorem readToEnd_ne_ok_of_outside {k n : ℕ} (hk : k < records.length)
    (hn : disk.numPages ≤ n) (fuel : ℕ) (last result : Option WALRecord) :
    readToEnd disk fuel ⟨⟨records, some n⟩, k⟩ last ≠ some (.ok result) := by
  induction fuel generalizing k last with
  | zero => simp [readToEnd]
  | succ fuel ih =>
      rw [readToEnd]
      by_cases hlast : k + 1 = records.length
      · rcases Nat.eq_or_lt_of_le hn with heq | hlt
        · -- The last page is found in the buffer again.
          have hfirst : 0 < records.length := by omega
          simpa [hasNextRecord, getNextRecord, hk, hlast, FileImage.readPage, heq] using
            ih hfirst (some records[k])
        · have hne : n ≠ disk.numPages := hlt.ne'
          simp [hasNextRecord, getNextRecord, hk, hlast, FileImage.readPage, Nat.not_lt.mpr hn, hne]
      · simpa [hasNextRecord, getNextRecord, hk, hlast] using ih (by omega) (some records[k])

end WALIterator

/-- What opening finds behind the closed header pages. -/
theorem ClosedChain.readToEnd_eq (hchain : ClosedChain disk cur closed) (hcur : cur < disk.numPages)
    {tail : List WALRecord} {page : HeaderPage} (hpage : (disk.pages cur).asHeaderPage = page)
    (htail : page = ⟨tail, none⟩ ∨ tail = [] ∧ page.records = []) (last : Option WALRecord) :
    ∃ fuel, WALIterator.readToEnd disk fuel
      ⟨(disk.pages (firstPage cur closed)).asHeaderPage, 0⟩ last =
        some (.ok ((closed.flatMap Prod.snd ++ tail).getLast?.or last)) := by
  induction closed generalizing last with
  | nil =>
      rcases htail with rfl | ⟨rfl, hrecords⟩
      · refine ⟨0 + 1 + (tail.length - 0), ?_⟩
        rw [firstPage, hpage, WALIterator.readToEnd_last (Nat.zero_le _)]
        simp
      · refine ⟨1, ?_⟩
        simp [firstPage, hpage, WALIterator.readToEnd, WALIterator.hasNextRecord, hrecords]
  | cons entry rest ih =>
      obtain ⟨p, records⟩ := entry
      obtain ⟨hp, hrecords, hlt, hrest⟩ := hchain
      have hfirst : firstPage cur rest < disk.numPages := by
        cases rest with
        | nil => exact hcur
        | cons entry rest => exact hrest.2.2.1
      obtain ⟨fuel, hread⟩ := ih hrest records.getLast?
      refine ⟨fuel + (records.length - 0), ?_⟩
      rw [firstPage, hp, FilePage.asHeaderPage,
        WALIterator.readToEnd_link (List.length_pos_iff.mpr hrecords) _ _ hfirst, hread]
      have hlast : (records ++ (rest.flatMap Prod.snd ++ tail)).getLast?.or last =
          (rest.flatMap Prod.snd ++ tail).getLast?.or records.getLast? := by
        rw [List.getLast?_append, Option.or_assoc, List.getLast?_eq_getLast_of_ne_nil hrecords,
          Option.some_or]
      rw [← hlast, List.flatMap_cons, List.append_assoc]

/-- Opening fails when the last closed header page points to a page that the file does not have. -/
theorem ClosedChain.readToEnd_ne_ok {rest : List (ℕ × List WALRecord)} {k : ℕ}
    (hrest : ClosedChain disk cur rest) (hcur : disk.numPages ≤ cur) (hk : k < records.length)
    (fuel : ℕ) (last result : Option WALRecord) :
    WALIterator.readToEnd disk fuel ⟨⟨records, some (firstPage cur rest)⟩, k⟩ last ≠
      some (.ok result) := by
  induction rest generalizing records k fuel last with
  | nil => exact WALIterator.readToEnd_ne_ok_of_outside hk hcur fuel last result
  | cons entry rest ih =>
      obtain ⟨q, next⟩ := entry
      obtain ⟨hq, hnext, hlt, hrest⟩ := hrest
      induction fuel generalizing k last with
      | zero => simp [WALIterator.readToEnd]
      | succ fuel ihFuel =>
          rw [WALIterator.readToEnd]
          by_cases hlast : k + 1 = records.length
          · have hfail := ih hrest (List.length_pos_iff.mpr hnext) fuel (some records[k])
            simpa [WALIterator.hasNextRecord, WALIterator.getNextRecord, hk, hlast, firstPage,
              FileImage.readPage, hlt, hq, FilePage.asHeaderPage] using hfail
          · simpa [WALIterator.hasNextRecord, WALIterator.getNextRecord, hk, hlast, firstPage] using
              ihFuel (by omega) (some records[k])

theorem ClosedChain.recordsFrom (hchain : ClosedChain disk cur closed) {tail : List WALRecord}
    (htail : RecordsFrom disk cur tail) :
    RecordsFrom disk (firstPage cur closed) (closed.flatMap Prod.snd ++ tail) := by
  induction closed with
  | nil => exact htail
  | cons entry rest ih =>
      obtain ⟨hp, -, -, hrest⟩ := hchain
      rw [List.flatMap_cons, List.append_assoc]
      exact .link hp (ih hrest)

/-! ## When opening is safe -/

theorem Option.any_isCommit_iff (last : Option WALRecord) :
    last.any WALRecord.isCommit = true ↔ ∃ transactionID, last = some (.commit transactionID) := by
  rcases last with _ | record
  · simp
  · cases record <;> simp [WALRecord.isCommit]

theorem WAL.openFile_eq {fuel : ℕ} (hnum : 0 < disk.numPages) :
    WAL.openFile fuel disk =
      (WALIterator.readToEnd disk fuel ⟨(disk.pages 0).asHeaderPage, 0⟩ none).map fun result ↦
        result.map fun last ↦
          { numPages := disk.numPages
            currentHeaderPageIdx := 0
            currentHeaderPage := (disk.pages 0).asHeaderPage
            isLastLoggedRecordCommit := last.any WALRecord.isCommit
            dataPages := []
            disk := disk } := by
  have hread : disk.readPage {} 0 = .ok (disk.pages 0).asHeaderPage := by
    simp [FileImage.readPage, hnum]
  have hiter : WALIterator.new disk = .ok ⟨(disk.pages 0).asHeaderPage, 0⟩ := by
    simp only [WALIterator.new, hnum, if_true, hread]
    rfl
  simp [WAL.openFile, hnum.ne', hread, hiter]

theorem ClosedChain.link_of_mem (hchain : ClosedChain disk cur closed)
    (hp : p ∈ closed.map Prod.fst) :
    ∃ records n, disk.pages p = .header ⟨records, some n⟩ ∧ (n = cur ∨ n < disk.numPages) := by
  induction closed with
  | nil => simp at hp
  | cons entry rest ih =>
      obtain ⟨hpage, -, -, hrest⟩ := hchain
      rcases List.mem_cons.mp hp with rfl | hp
      · refine ⟨entry.2, _, hpage, ?_⟩
        cases rest with
        | nil => exact .inl rfl
        | cons entry' rest => exact .inr hrest.2.2.1
      · exact ih hrest hp

theorem ClosedChain.points_to_cur (hchain : ClosedChain disk cur closed) (hclosed : closed ≠ []) :
    ∃ p records, disk.pages p = .header ⟨records, some cur⟩ := by
  induction closed with
  | nil => exact absurd rfl hclosed
  | cons entry rest ih =>
      obtain ⟨hpage, -, -, hrest⟩ := hchain
      cases rest with
      | nil => exact ⟨entry.1, entry.2, hpage⟩
      | cons entry' rest => exact ih hrest (by simp)

/-- Only the pointer to the current header page can lead outside the file. -/
theorem Chained.pointersInside_iff (h : Chained wal closed) :
    PointersInside wal.disk ↔ closed = [] ∨ wal.currentHeaderPageIdx < wal.disk.numPages := by
  constructor
  · intro hinside
    by_cases hclosed : closed = []
    · exact .inl hclosed
    · obtain ⟨p, records, hp⟩ := h.chain.points_to_cur hclosed
      exact .inr (hinside p _ _ hp rfl)
  · intro hcur p page n hp hn
    have hcurrent : p ≠ wal.currentHeaderPageIdx := by
      rintro rfl
      rcases h.current with hhole | ⟨records, hrecords⟩
      · rw [hhole] at hp
        cases hp
      · rw [hrecords] at hp
        cases hp
        cases hn
    have hmem : p ∈ closed.map Prod.fst := by
      have hheader := h.only_headers p page hp
      simpa [headerPages, hcurrent] using hheader
    obtain ⟨records, n', hlink, hn'⟩ := h.chain.link_of_mem hmem
    rw [hlink] at hp
    cases hp
    cases hn
    rcases hn' with rfl | hlt
    · rcases hcur with rfl | hlt
      · simp at hmem
      · exact hlt
    · exact hlt

theorem Chained.opensSafely (h : Chained wal closed)
    (hinside : closed = [] ∨ wal.currentHeaderPageIdx < wal.disk.numPages) :
    OpensSafely wal.disk := by
  obtain ⟨tail, htail, hpage⟩ : ∃ tail, RecordsFrom wal.disk wal.currentHeaderPageIdx tail ∧
      ((wal.disk.pages wal.currentHeaderPageIdx).asHeaderPage = ⟨tail, none⟩ ∨
        tail = [] ∧ (wal.disk.pages wal.currentHeaderPageIdx).asHeaderPage.records = []) := by
    rcases h.current with hhole | ⟨records, hrecords⟩
    · exact ⟨[], .unwritten (by simp [hhole]), .inr ⟨rfl, by rw [hhole]; rfl⟩⟩
    · exact ⟨records, .last hrecords, .inl (by rw [hrecords]; rfl)⟩
  have hrecords := h.chain.recordsFrom htail
  rw [h.first] at hrecords
  rcases Nat.eq_zero_or_pos wal.disk.numPages with hzero | hpos
  · -- Nothing has been written yet.
    have hunwritten : RecordsFrom wal.disk 0 [] :=
      .unwritten (by simp [h.beyond 0 (by omega)])
    refine ⟨0, _, [], by simp [WAL.openFile, hzero]; rfl, hunwritten, ?_⟩
    simp [WAL.cleared]
  · have hcur : wal.currentHeaderPageIdx < wal.disk.numPages := by
      rcases hinside with rfl | hlt
      · have hfirst : wal.currentHeaderPageIdx = 0 := h.first
        omega
      · exact hlt
    obtain ⟨fuel, hread⟩ := h.chain.readToEnd_eq hcur rfl hpage none
    rw [h.first] at hread
    refine ⟨fuel, _, _, by rw [WAL.openFile_eq hpos, hread]; rfl, hrecords, ?_⟩
    simp only [Option.or_none]
    exact Option.any_isCommit_iff _

theorem Chained.not_opensSafely (h : Chained wal closed) (hclosed : closed ≠ [])
    (hcur : wal.disk.numPages ≤ wal.currentHeaderPageIdx) : ¬OpensSafely wal.disk := by
  rintro ⟨fuel, wal', records, hopen, -⟩
  obtain ⟨⟨p, first⟩, rest, rfl⟩ := List.exists_cons_of_ne_nil hclosed
  obtain ⟨hpage, hfirst, hlt, hrest⟩ := h.chain
  obtain rfl : p = 0 := h.first
  rw [WAL.openFile_eq hlt, hpage] at hopen
  obtain ⟨result, hresult, hmap⟩ := Option.map_eq_some_iff.mp hopen
  cases result with
  | error error => simp [Except.map] at hmap
  | ok last =>
      exact hrest.readToEnd_ne_ok hcur (List.length_pos_iff.mpr hfirst) fuel none last hresult

/-- Whenever the process may crash, the WAL can be opened safely exactly when the header pages on
disk point to pages before the end of the file. -/
theorem opensSafely_iff_pointersInside {steps : List WALStep}
    (hrun : Lib.run WAL.step WAL.cleared steps = some wal) :
    OpensSafely wal.disk ↔ PointersInside wal.disk := by
  obtain ⟨closed, h⟩ := chained_of_run hrun
  rw [h.pointersInside_iff]
  constructor
  · intro hsafe
    by_contra hnot
    rw [not_or, not_lt] at hnot
    exact h.not_opensSafely hnot.1 hnot.2 hsafe
  · exact h.opensSafely

/-- The write transaction updates a page of the first column. -/
def updateOnePage : WALStep := .logPage ⟨.structuredNodePropertyColumn 0 0, false⟩ 0 false

/-- A commit that has been flushed. -/
theorem opensSafely_iff_pointersInside_flushedCommit :
    ∃ wal, Lib.run WAL.step WAL.cleared [updateOnePage, .log (.commit 1), .flushHeaderPages] =
      some wal ∧ OpensSafely wal.disk := by
  have hrun : Lib.run WAL.step WAL.cleared
      [updateOnePage, .log (.commit 1), .flushHeaderPages] = some _ := rfl
  refine ⟨_, hrun, (opensSafely_iff_pointersInside hrun).mpr ?_⟩
  intro p page n hp hn
  by_cases hzero : p = 0
  · subst hzero
    cases hp
    cases hn
  · change Function.update (fun _ ↦ FilePage.hole) 0 _ p = _ at hp
    rw [Function.update_of_ne hzero] at hp
    cases hp

/-- The first header page holds 51 records. -/
theorem run_updates_on_first_page {k : ℕ} (hk : k ≤ 51) :
    ∃ wal, Lib.run WAL.step WAL.cleared (List.replicate k updateOnePage) = some wal ∧
      wal.currentHeaderPageIdx = 0 ∧ wal.currentHeaderPage.records.length = k ∧
      wal.disk.numPages = 0 := by
  induction k with
  | zero => exact ⟨WAL.cleared, rfl, rfl, rfl, rfl⟩
  | succ k ih =>
      obtain ⟨wal, hrun, hcur, hlength, hdisk⟩ := ih (by omega)
      have hfits : ¬wal.addDataPage.offsetInCurrentHeaderPage + walRecordSize > headerPageSize := by
        simp only [WAL.offsetInCurrentHeaderPage, WAL.addDataPage, hlength, headerPagePrefixSize,
          walRecordSize, headerPageSize]
        omega
      obtain ⟨wal', hstep⟩ : ∃ wal', wal.step updateOnePage = some wal' := ⟨_, rfl⟩
      refine ⟨wal', ?_, ?_⟩
      · rw [List.replicate_succ']
        exact Lib.run_concat_of_eq_some hrun hstep
      · simp only [WAL.step, updateOnePage, Option.some.injEq] at hstep
        subst hstep
        rw [WAL.addNewWALRecord, WAL.addHeaderPageIfNecessary, if_neg hfits]
        simp [WAL.appendRecord, WAL.addDataPage, hcur, hlength, hdisk]

/-- With the next record the header page is written, with a pointer to a page that does not exist
when the process crashes now. -/
theorem not_opensSafely_after_overflow :
    ∃ wal, Lib.run WAL.step WAL.cleared (List.replicate 52 updateOnePage) = some wal ∧
      ¬OpensSafely wal.disk := by
  obtain ⟨wal, hrun, hcur, hlength, hdisk⟩ := run_updates_on_first_page (k := 51) le_rfl
  have hfull : wal.addDataPage.offsetInCurrentHeaderPage + walRecordSize > headerPageSize := by
    simp only [WAL.offsetInCurrentHeaderPage, WAL.addDataPage, hlength, headerPagePrefixSize,
      walRecordSize, headerPageSize]
    omega
  obtain ⟨wal', hstep⟩ : ∃ wal', wal.step updateOnePage = some wal' := ⟨_, rfl⟩
  have hrun' : Lib.run WAL.step WAL.cleared (List.replicate 52 updateOnePage) = some wal' := by
    rw [List.replicate_succ']
    exact Lib.run_concat_of_eq_some hrun hstep
  refine ⟨wal', hrun', ?_⟩
  obtain ⟨closed, h⟩ := chained_of_run hrun'
  obtain ⟨hnum, hcur'⟩ : wal'.disk.numPages = 1 ∧ wal'.currentHeaderPageIdx = wal.numPages + 1 := by
    simp only [WAL.step, updateOnePage, Option.some.injEq] at hstep
    subst hstep
    rw [WAL.addNewWALRecord, WAL.addHeaderPageIfNecessary, if_pos hfull]
    simp [WAL.appendRecord, WAL.addDataPage, FileImage.writePage, hcur, hdisk]
  refine h.not_opensSafely ?_ (by omega)
  rintro rfl
  have hfirst : wal'.currentHeaderPageIdx = 0 := h.first
  omega

end Graphflow.Wal
