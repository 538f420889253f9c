import Graphflow.Storage.DiskArray

/-!
# How a file holds an array

`Layout file headerPage pips aps xs` says that the pages `file` hold the array `xs` behind the
header page, with the PIPs and the array pages at the listed pages.  The committed array is a layout
of the pages on disk, the working array of a write transaction one of the pages as the transaction
sees them.  The lemmas follow the page writes of the source: each says what one of them makes of the
chain of PIPs, of the entries in the PIPs, or of the elements.
-/

namespace Graphflow.Storage

variable {file file' : ℕ → Page} {headerPage p q v i j : ℕ} {pips aps xs : List ℕ} {page : Page}

@[simp] theorem Page.asArray_writeElement (page : Page) (offset val : ℕ) :
    (page.writeElement offset val).asArray = Function.update page.asArray offset val := rfl

@[simp] theorem Page.asPIP_setNextPipPageIdx (page : Page) (next : Option ℕ) :
    (page.setNextPipPageIdx next).asPIP = { page.asPIP with nextPipPageIdx := next } := rfl

@[simp] theorem Page.asPIP_setPageIdx (page : Page) (offset pageIdx : ℕ) :
    (page.setPageIdx offset pageIdx).asPIP =
      { page.asPIP with pageIdxs := Function.update page.asPIP.pageIdxs offset pageIdx } := rfl

theorem shiftRight_numElementsPerPageLog2 (n : ℕ) : n >>> numElementsPerPageLog2 = n / 1024 := by
  simp [numElementsPerPageLog2, Nat.shiftRight_eq_div_pow]

theorem and_elementPageOffsetMask (n : ℕ) : n &&& elementPageOffsetMask = n % 1024 := by
  have h := Nat.and_two_pow_sub_one_eq_mod n 10
  simpa [elementPageOffsetMask, numElementsPerPageLog2] using h

/-- Each PIP points to the next one. -/
def PIPChain (file : ℕ → Page) (pips : List ℕ) : Prop :=
  ∀ k p, pips[k]? = some p → (file p).asPIP.nextPipPageIdx = pips[k + 1]?

/-- The PIPs hold the pages of the array pages, 1023 each. -/
def APEntries (file : ℕ → Page) (pips aps : List ℕ) : Prop :=
  ∀ i p, aps[i]? = some p →
    ∃ q, pips[i / 1023]? = some q ∧ (file q).asPIP.pageIdxs (i % 1023) = p

/-- The array pages hold the elements, 1024 each. -/
def APElements (file : ℕ → Page) (aps xs : List ℕ) : Prop :=
  ∀ j x, xs[j]? = some x →
    ∃ p, aps[j / 1024]? = some p ∧ (file p).asArray (j % 1024) = x

structure Layout (file : ℕ → Page) (headerPage : ℕ) (pips aps xs : List ℕ) : Prop where
  header : (file headerPage).asHeader = ⟨pips.head?, xs.length, aps.length⟩
  length_aps : aps.length = (xs.length + 1023) / 1024
  length_pips : pips.length = (aps.length + 1022) / 1023
  chain : PIPChain file pips
  entries : APEntries file pips aps
  elements : APElements file aps xs
  nodup : (headerPage :: (pips ++ aps)).Nodup

/-! ## Only the listed pages matter -/

theorem PIPChain.congr (hchain : PIPChain file pips) (heq : ∀ p ∈ pips, file' p = file p) :
    PIPChain file' pips := by
  intro k p hk
  rw [heq p (List.mem_of_getElem? hk)]
  exact hchain k p hk

theorem APEntries.congr (hentries : APEntries file pips aps)
    (heq : ∀ p ∈ pips, file' p = file p) : APEntries file' pips aps := by
  intro i p hi
  obtain ⟨q, hq, hpage⟩ := hentries i p hi
  exact ⟨q, hq, by rw [heq q (List.mem_of_getElem? hq), hpage]⟩

theorem APElements.congr (helements : APElements file aps xs)
    (heq : ∀ p ∈ aps, file' p = file p) : APElements file' aps xs := by
  intro j x hj
  obtain ⟨p, hp, hval⟩ := helements j x hj
  exact ⟨p, hp, by rw [heq p (List.mem_of_getElem? hp), hval]⟩

theorem Layout.congr (hlayout : Layout file headerPage pips aps xs)
    (heq : ∀ p ∈ headerPage :: (pips ++ aps), file' p = file p) :
    Layout file' headerPage pips aps xs where
  header := by rw [heq headerPage (by simp), hlayout.header]
  length_aps := hlayout.length_aps
  length_pips := hlayout.length_pips
  chain := hlayout.chain.congr fun p hp ↦ heq p (by simp [hp])
  entries := hlayout.entries.congr fun p hp ↦ heq p (by simp [hp])
  elements := hlayout.elements.congr fun p hp ↦ heq p (by simp [hp])
  nodup := hlayout.nodup

/-! ## The chain of PIPs -/

theorem PIPChain.update_of_not_mem (hchain : PIPChain file pips) (hq : q ∉ pips) :
    PIPChain (Function.update file q page) pips :=
  hchain.congr fun p hp ↦ Function.update_of_ne (by rintro rfl; exact hq hp) _ _

theorem PIPChain.setPageIdx (hchain : PIPChain file pips) :
    PIPChain (Function.update file q ((file q).setPageIdx i v)) pips := by
  intro k p hk
  by_cases hpq : p = q
  · subst hpq
    simpa using hchain k p hk
  · rw [Function.update_of_ne hpq]
    exact hchain k p hk

/-- A PIP without successor is appended after the last one has been made to point to it. -/
theorem PIPChain.append (hchain : PIPChain file pips) (hnodup : pips.Nodup)
    (hlast : ∀ p, pips.getLast? = some p → (file' p).asPIP.nextPipPageIdx = some q)
    (hnew : (file' q).asPIP.nextPipPageIdx = none)
    (hrest : ∀ p ∈ pips, pips.getLast? ≠ some p → file' p = file p) :
    PIPChain file' (pips ++ [q]) := by
  intro k p hk
  rcases Nat.lt_trichotomy k pips.length with hlt | rfl | hgt
  · rw [List.getElem?_append_left hlt] at hk
    rcases Nat.lt_or_ge (k + 1) pips.length with hlt' | hge'
    · have hp : pips.getLast? ≠ some p := by
        intro hlast'
        rw [List.getLast?_eq_getElem?] at hlast'
        have hidx := (List.getElem?_inj hlt hnodup).mp (hk.trans hlast'.symm)
        omega
      rw [List.getElem?_append_left hlt', hrest p (List.mem_of_getElem? hk) hp]
      exact hchain k p hk
    · have hk' : k = pips.length - 1 := by omega
      have hlast' : pips.getLast? = some p := by
        rw [List.getLast?_eq_getElem?, ← hk', hk]
      rw [hlast p hlast', List.getElem?_append_right hge']
      simp [show k + 1 - pips.length = 0 by omega]
  · obtain rfl : q = p := by simpa using hk
    simpa using hnew
  · rw [List.getElem?_eq_none (by simp; omega)] at hk
    simp at hk

/-! ## Entries of the PIPs -/

theorem APEntries.setNextPipPageIdx {next : Option ℕ} (hentries : APEntries file pips aps) :
    APEntries (Function.update file q ((file q).setNextPipPageIdx next)) pips aps := by
  intro i p hi
  obtain ⟨r, hr, hpage⟩ := hentries i p hi
  refine ⟨r, hr, ?_⟩
  by_cases hrq : r = q
  · subst hrq
    simpa using hpage
  · rw [Function.update_of_ne hrq, hpage]

theorem APEntries.append_pip (hentries : APEntries file pips aps) :
    APEntries file (pips ++ [q]) aps := by
  intro i p hi
  obtain ⟨r, hr, hpage⟩ := hentries i p hi
  obtain ⟨hlt, -⟩ := List.getElem?_eq_some_iff.mp hr
  exact ⟨r, by rw [List.getElem?_append_left hlt, hr], hpage⟩

theorem APEntries.update_of_not_mem (hentries : APEntries file pips aps) (hq : q ∉ pips) :
    APEntries (Function.update file q page) pips aps :=
  hentries.congr fun p hp ↦ Function.update_of_ne (by rintro rfl; exact hq hp) _ _

/-- A new array page is entered behind the last one. -/
theorem APEntries.append_ap (hentries : APEntries file pips aps) (hnodup : pips.Nodup)
    (hq : pips[aps.length / 1023]? = some q)
    (hpage : (file' q).asPIP.pageIdxs = Function.update (file q).asPIP.pageIdxs
      (aps.length % 1023) p)
    (hrest : ∀ r ∈ pips, r ≠ q → file' r = file r) :
    APEntries file' pips (aps ++ [p]) := by
  intro i r hi
  rcases Nat.lt_trichotomy i aps.length with hlt | rfl | hgt
  · rw [List.getElem?_append_left hlt] at hi
    obtain ⟨r', hr', hentry⟩ := hentries i r hi
    refine ⟨r', hr', ?_⟩
    by_cases hrq : r' = q
    · subst hrq
      obtain ⟨hlen, -⟩ := List.getElem?_eq_some_iff.mp hr'
      have hidx := (List.getElem?_inj hlen hnodup).mp (hr'.trans hq.symm)
      have hne : i % 1023 ≠ aps.length % 1023 := by omega
      rw [hpage, Function.update_of_ne hne, hentry]
    · rw [hrest r' (List.mem_of_getElem? hr') hrq, hentry]
  · obtain rfl : p = r := by simpa using hi
    exact ⟨q, hq, by simp [hpage]⟩
  · rw [List.getElem?_eq_none (by simp; omega)] at hi
    simp at hi

/-! ## Elements -/

theorem APElements.append_ap (helements : APElements file aps xs) :
    APElements file (aps ++ [p]) xs := by
  intro j x hj
  obtain ⟨r, hr, hval⟩ := helements j x hj
  obtain ⟨hlt, -⟩ := List.getElem?_eq_some_iff.mp hr
  exact ⟨r, by rw [List.getElem?_append_left hlt, hr], hval⟩

theorem APElements.update_of_not_mem (helements : APElements file aps xs) (hq : q ∉ aps) :
    APElements (Function.update file q page) aps xs :=
  helements.congr fun p hp ↦ Function.update_of_ne (by rintro rfl; exact hq hp) _ _

theorem APElements.writeElement_of_ne (helements : APElements file aps xs) (hnodup : aps.Nodup)
    (hp : aps[j / 1024]? = some p) {x : ℕ} (hx : xs[i]? = some x) (hij : i ≠ j) :
    ∃ r, aps[i / 1024]? = some r ∧
      (Function.update file p ((file p).writeElement (j % 1024) v) r).asArray (i % 1024) = x := by
  obtain ⟨r, hr, hval⟩ := helements i x hx
  refine ⟨r, hr, ?_⟩
  by_cases hrp : r = p
  · subst hrp
    obtain ⟨hlen, -⟩ := List.getElem?_eq_some_iff.mp hr
    have hidx := (List.getElem?_inj hlen hnodup).mp (hr.trans hp.symm)
    have hne : i % 1024 ≠ j % 1024 := by omega
    simpa [Function.update_of_ne hne] using hval
  · rw [Function.update_of_ne hrp, hval]

theorem APElements.set (helements : APElements file aps xs) (hnodup : aps.Nodup)
    (hp : aps[j / 1024]? = some p) :
    APElements (Function.update file p ((file p).writeElement (j % 1024) v)) aps (xs.set j v) := by
  intro i x hi
  by_cases hij : i = j
  · subst hij
    obtain ⟨hlt, hx⟩ := List.getElem?_eq_some_iff.mp hi
    obtain rfl : v = x := by simpa using hx
    exact ⟨p, hp, by simp⟩
  · rw [List.getElem?_set_ne (Ne.symm hij)] at hi
    exact helements.writeElement_of_ne hnodup hp hi hij

theorem APElements.append (helements : APElements file aps xs) (hnodup : aps.Nodup)
    (hp : aps[xs.length / 1024]? = some p) :
    APElements (Function.update file p ((file p).writeElement (xs.length % 1024) v)) aps
      (xs ++ [v]) := by
  intro i x hi
  rcases Nat.lt_trichotomy i xs.length with hlt | rfl | hgt
  · rw [List.getElem?_append_left hlt] at hi
    exact helements.writeElement_of_ne hnodup hp hi hlt.ne
  · obtain rfl : v = x := by simpa using hi
    exact ⟨p, hp, by simp⟩
  · rw [List.getElem?_eq_none (by simp; omega)] at hi
    simp at hi

theorem Layout.exists_ap (h : Layout file headerPage pips aps xs) (hj : j < xs.length) :
    ∃ p, aps[j / 1024]? = some p ∧ (file p).asArray (j % 1024) = xs[j] :=
  h.elements j xs[j] (List.getElem?_eq_getElem hj)

/-! ## Distinct pages -/

theorem Layout.header_not_mem_pips (h : Layout file headerPage pips aps xs) :
    headerPage ∉ pips := by
  have hmem := (List.nodup_cons.mp h.nodup).1
  simp only [List.mem_append, not_or] at hmem
  exact hmem.1

theorem Layout.header_not_mem_aps (h : Layout file headerPage pips aps xs) :
    headerPage ∉ aps := by
  have hmem := (List.nodup_cons.mp h.nodup).1
  simp only [List.mem_append, not_or] at hmem
  exact hmem.2

theorem Layout.nodup_pips (h : Layout file headerPage pips aps xs) : pips.Nodup :=
  (List.nodup_append.mp (List.nodup_cons.mp h.nodup).2).1

theorem Layout.nodup_aps (h : Layout file headerPage pips aps xs) : aps.Nodup :=
  (List.nodup_append.mp (List.nodup_cons.mp h.nodup).2).2.1

theorem Layout.not_mem_aps_of_mem_pips (h : Layout file headerPage pips aps xs) (hp : p ∈ pips) :
    p ∉ aps := by
  have hdisj := (List.nodup_append.mp (List.nodup_cons.mp h.nodup).2).2.2
  exact fun hmem ↦ hdisj p hp p hmem rfl

theorem Layout.not_mem_pips_of_mem_aps (h : Layout file headerPage pips aps xs) (hp : p ∈ aps) :
    p ∉ pips :=
  fun hmem ↦ h.not_mem_aps_of_mem_pips hmem hp

/-! ## The operations of the write transaction -/

/-- `update` writes one element. -/
theorem Layout.set (h : Layout file headerPage pips aps xs) (hp : aps[j / 1024]? = some p) :
    Layout (Function.update file p ((file p).writeElement (j % 1024) v)) headerPage pips aps
      (xs.set j v) := by
  have hmem := List.mem_of_getElem? hp
  have hheader : headerPage ≠ p := by
    rintro rfl
    exact h.header_not_mem_aps hmem
  have hpips := h.not_mem_pips_of_mem_aps hmem
  refine ⟨?_, ?_, h.length_pips, h.chain.update_of_not_mem hpips,
    h.entries.update_of_not_mem hpips, h.elements.set h.nodup_aps hp, h.nodup⟩
  · rw [Function.update_of_ne hheader, h.header, List.length_set]
  · rw [List.length_set]
    exact h.length_aps

/-- `pushBack` into the last array page. -/
theorem Layout.push_element (h : Layout file headerPage pips aps xs)
    (hp : aps[xs.length / 1024]? = some p) :
    Layout (Function.update
        (Function.update file p ((file p).writeElement (xs.length % 1024) v)) headerPage
        (.header ⟨pips.head?, xs.length + 1, aps.length⟩))
      headerPage pips aps (xs ++ [v]) := by
  have hmem := List.mem_of_getElem? hp
  have hpips := h.not_mem_pips_of_mem_aps hmem
  obtain ⟨hlt, -⟩ := List.getElem?_eq_some_iff.mp hp
  have hlength := h.length_aps
  refine ⟨?_, ?_, h.length_pips, ?_, ?_, ?_, h.nodup⟩
  · simp [Page.asHeader]
  · simp only [List.length_append, List.length_singleton]
    omega
  · exact (h.chain.update_of_not_mem hpips).update_of_not_mem h.header_not_mem_pips
  · exact (h.entries.update_of_not_mem hpips).update_of_not_mem h.header_not_mem_pips
  · exact (h.elements.append h.nodup_aps hp).update_of_not_mem h.header_not_mem_aps

/-- The elements after writing the first element of a new array page. -/
theorem Layout.elements_push_ap (junk : Page) (h : Layout file headerPage pips aps xs)
    (hfull : aps.length ≤ xs.length / 1024) (hp : p ∉ aps)
    (hfile : ∀ r ∈ aps, file' r = file r) :
    APElements (Function.update file' p (junk.writeElement (xs.length % 1024) v)) (aps ++ [p])
      (xs ++ [v]) := by
  have hlength := h.length_aps
  have hidx : xs.length / 1024 = aps.length := by omega
  have helements : APElements (Function.update file' p junk) (aps ++ [p]) xs :=
    ((h.elements.congr hfile).update_of_not_mem hp).append_ap
  have hnodup : (aps ++ [p]).Nodup := by simpa using List.Nodup.concat hp h.nodup_aps
  have happend := helements.append (v := v) hnodup (p := p) (by simp [hidx])
  simpa using happend

/-- `pushBack` with a new array page that is entered in an existing PIP. -/
theorem Layout.push_ap (junk : Page) (h : Layout file headerPage pips aps xs)
    (hfull : aps.length ≤ xs.length / 1024) (hq : pips[aps.length / 1023]? = some q)
    (hp : p ∉ headerPage :: (pips ++ aps)) :
    Layout (Function.update (Function.update
        (Function.update file q ((file q).setPageIdx (aps.length % 1023) p)) p
        (junk.writeElement (xs.length % 1024) v)) headerPage
        (.header ⟨pips.head?, xs.length + 1, aps.length + 1⟩))
      headerPage pips (aps ++ [p]) (xs ++ [v]) := by
  have hqmem := List.mem_of_getElem? hq
  simp only [List.mem_cons, List.mem_append, not_or] at hp
  obtain ⟨hph, hpp, hpa⟩ := hp
  have hlength := h.length_aps
  have hlengthPips := h.length_pips
  obtain ⟨hlt, -⟩ := List.getElem?_eq_some_iff.mp hq
  refine ⟨?_, ?_, ?_, ?_, ?_, ?_, ?_⟩
  · simp [Page.asHeader]
  · simp only [List.length_append, List.length_singleton]
    omega
  · simp only [List.length_append, List.length_singleton]
    omega
  · exact (h.chain.setPageIdx.update_of_not_mem hpp).update_of_not_mem h.header_not_mem_pips
  · refine APEntries.update_of_not_mem (APEntries.update_of_not_mem ?_ hpp) h.header_not_mem_pips
    refine h.entries.append_ap h.nodup_pips hq (by simp) ?_
    exact fun r _ hr ↦ Function.update_of_ne hr _ _
  · refine APElements.update_of_not_mem ?_ ?_
    · refine elements_push_ap junk h hfull hpa fun r hr ↦ Function.update_of_ne ?_ _ _
      rintro rfl
      exact h.not_mem_aps_of_mem_pips hqmem hr
    · simpa [h.header_not_mem_aps] using Ne.symm hph
  · have hnodup := h.nodup
    simp only [List.nodup_cons, List.nodup_append, List.mem_append, List.mem_singleton] at hnodup ⊢
    grind

/-- The pages after the last PIP, if there is one, has been made to point to page `q`. -/
def linkLastPIP (file : ℕ → Page) (pips : List ℕ) (q : ℕ) : ℕ → Page :=
  match pips.getLast? with
  | none => file
  | some last => Function.update file last ((file last).setNextPipPageIdx (some q))

theorem linkLastPIP_of_ne_last (hp : pips.getLast? ≠ some p) :
    linkLastPIP file pips q p = file p := by
  cases hlast : pips.getLast? with
  | none => simp [linkLastPIP, hlast]
  | some last =>
      have hne : p ≠ last := by
        rintro rfl
        exact hp hlast
      simp [linkLastPIP, hlast, Function.update_of_ne hne]

theorem APEntries.linkLastPIP (hentries : APEntries file pips aps) :
    APEntries (linkLastPIP file pips q) pips aps := by
  cases hlast : pips.getLast? with
  | none => simpa [Storage.linkLastPIP, hlast] using hentries
  | some last =>
      simpa only [Storage.linkLastPIP, hlast] using hentries.setNextPipPageIdx

/-- `pushBack` with a new array page and a new PIP. -/
theorem Layout.push_pip (junk junk' : Page) (h : Layout file headerPage pips aps xs)
    (hfull : aps.length ≤ xs.length / 1024) (hpips : pips.length ≤ aps.length / 1023)
    (hp : p ∉ headerPage :: (pips ++ aps)) (hq : q ∉ headerPage :: (pips ++ aps)) (hpq : p ≠ q) :
    Layout (Function.update (Function.update (Function.update (linkLastPIP file pips q) q
        ((junk'.setNextPipPageIdx none).setPageIdx (aps.length % 1023) p)) p
        (junk.writeElement (xs.length % 1024) v)) headerPage
        (.header ⟨(pips ++ [q]).head?, xs.length + 1, aps.length + 1⟩))
      headerPage (pips ++ [q]) (aps ++ [p]) (xs ++ [v]) := by
  simp only [List.mem_cons, List.mem_append, not_or] at hp hq
  obtain ⟨hph, hpp, hpa⟩ := hp
  obtain ⟨hqh, hqp, hqa⟩ := hq
  have hlength := h.length_aps
  have hlengthPips := h.length_pips
  have hidx : aps.length / 1023 = pips.length := by omega
  have hnodup : (pips ++ [q]).Nodup := by simpa using List.Nodup.concat hqp h.nodup_pips
  have hp' : p ∉ pips ++ [q] := by simp [hpp, hpq]
  have hh' : headerPage ∉ pips ++ [q] := by simp [h.header_not_mem_pips, Ne.symm hqh]
  refine ⟨?_, ?_, ?_, ?_, ?_, ?_, ?_⟩
  · simp [Page.asHeader]
  · simp only [List.length_append, List.length_singleton]
    omega
  · simp only [List.length_append, List.length_singleton]
    omega
  · refine PIPChain.update_of_not_mem (PIPChain.update_of_not_mem ?_ hp') hh'
    refine h.chain.append h.nodup_pips ?_ (by simp) ?_
    · intro last hlast
      have hne : last ≠ q := by
        rintro rfl
        exact hqp (List.mem_of_getLast? hlast)
      simp [Function.update_of_ne hne, linkLastPIP, hlast]
    · intro r hr hlast
      have hne : r ≠ q := by
        rintro rfl
        exact hqp hr
      rw [Function.update_of_ne hne]
      exact linkLastPIP_of_ne_last hlast
  · refine APEntries.update_of_not_mem (APEntries.update_of_not_mem ?_ hp') hh'
    have hjunk : APEntries (Function.update (linkLastPIP file pips q) q junk') (pips ++ [q]) aps :=
      (h.entries.linkLastPIP.update_of_not_mem hqp).append_pip
    refine hjunk.append_ap hnodup (q := q) (by simp [hidx]) (by simp) ?_
    intro r _ hr
    rw [Function.update_of_ne hr, Function.update_of_ne hr]
  · refine APElements.update_of_not_mem ?_ ?_
    · refine elements_push_ap junk h hfull hpa fun r hr ↦ ?_
      have hne : r ≠ q := by
        rintro rfl
        exact hqa hr
      rw [Function.update_of_ne hne]
      refine linkLastPIP_of_ne_last fun hlast ↦ ?_
      exact h.not_mem_pips_of_mem_aps hr (List.mem_of_getLast? hlast)
    · simpa [h.header_not_mem_aps] using Ne.symm hph
  · have hnodup := h.nodup
    simp only [List.nodup_cons, List.nodup_append, List.mem_append, List.mem_singleton] at hnodup ⊢
    grind

end Graphflow.Storage
