import MysqlConnection.Core.Cursor
import MysqlConnection.Core.SqlLexer
import MysqlConnection.L2Client.SQLClient

/-!
# The two result pagers

`ShowResultViewController` reads the row at its index whenever its cells are
drawn, `SearchResultController` keeps the row it has last read. Their guards
differ; both compare an `int` with the unsigned count, and `count - 1` wraps
for an empty array. The target is built for 32-bit processors, where `int` and
`NSUInteger` have the same width `w`; the count of an array is at most
`NSIntegerMax`.

* `show_follows`, `search_follows`: each tap is a move of a `Cursor`, and the
  cells are those of the row at the index.
* `paged`: both pagers after any taps.
-/
namespace MysqlConnection.L3.Pagers

open Cursor
open MysqlConnection.L2.Client (Row)

variable {w : Nat}

/-! ## Rows -/

/-- A result set. -/
structure NSArray (w : Nat) where
  rows : List Row
  count_lt : rows.length < 2 ^ (w - 1)

def NSArray.count (array : NSArray w) : BitVec w := BitVec.ofNat w array.rows.length

/-- `none`: a range exception. -/
def NSArray.objectAtIndex (array : NSArray w) (i : BitVec w) : Option Row := array.rows[i.toNat]?

def allKeys (dict : Row) : List NSString := dict.map (·.1)

/-- `none` is `nil`, `some none` is `NSNull`. -/
def objectForKey (dict : Row) (key : NSString) : Option (Option NSString) := dict.lookup key

/-! ## ShowResultViewController -/

/-- `cells` are the column titles and the objects put into the text fields
when the table was last drawn. -/
structure ShowResultViewController (w : Nat) where
  m_showResult : NSArray w
  m_keyDataArray : List NSString
  showPageIndex : BitVec w
  lbl_pageInfo : NSString
  cells : List (NSString × Option (Option NSString))

namespace ShowResultViewController

/-- mirrors ShowResultViewController.m:17-30 -/
def setDataArray (array : NSArray w) : Option (ShowResultViewController w) :=
  (array.objectAtIndex 0).map fun dict => ⟨array, allKeys dict, 0, [], []⟩

/-- mirrors ShowResultViewController.m:31-34 -/
def setKeyArray (s : ShowResultViewController w) (array : List NSString) : ShowResultViewController w :=
  { s with m_keyDataArray := array }

/-- mirrors ShowResultViewController.m:78-88 -/
def cellForRow (s : ShowResultViewController w) (tableTitle : NSString) :
    Option (NSString × Option (Option NSString)) :=
  (s.m_showResult.objectAtIndex s.showPageIndex).map fun dict => (tableTitle, objectForKey dict tableTitle)

def reloadData (s : ShowResultViewController w) : Option (ShowResultViewController w) :=
  (s.m_keyDataArray.mapM (cellForRow s)).map fun cells => { s with cells := cells }

/-- `@"%d/%d"` of the page and the count. -/
def pageInfo (s : ShowResultViewController w) : NSString :=
  Sql.intText (s.showPageIndex + 1).toInt ++ ns "/" ++ Sql.intText s.m_showResult.count.toInt

/-- The label and the cells anew. -/
def showPage (s : ShowResultViewController w) : Option (ShowResultViewController w) :=
  reloadData { s with lbl_pageInfo := pageInfo s }

/-- mirrors ShowResultViewController.m:36-42 -/
def onGotoBefore (s : ShowResultViewController w) : Option (ShowResultViewController w) :=
  if s.showPageIndex.sle 0 then some s
  else showPage { s with showPageIndex := s.showPageIndex - 1 }

/-- mirrors ShowResultViewController.m:44-50 -/
def onGotoNext (s : ShowResultViewController w) : Option (ShowResultViewController w) :=
  if s.m_showResult.count - 1 ≤ s.showPageIndex then some s
  else showPage { s with showPageIndex := s.showPageIndex + 1 }

def tap (s : ShowResultViewController w) : Move → Option (ShowResultViewController w)
  | .before => onGotoBefore s
  | .next => onGotoNext s

/-- The pager when it is pushed; `viewDidLoad` shows the page.
mirrors CretoriaViewController.m:93-97 and ShowResultViewController.m:51-63 -/
def opened (array : NSArray w) (keys : List NSString) : Option (ShowResultViewController w) :=
  (setDataArray array).bind fun s => showPage (setKeyArray s keys)

def run (array : NSArray w) (keys : List NSString) (taps : List Move) :
    Option (ShowResultViewController w) :=
  (opened array keys).bind fun s => LTS.exec tap s taps

/-- The pager that an answer opens, none without a result set, for another
request and for an empty result set (an alert).
mirrors CretoriaViewController.m:82-99 -/
def pushed (result : List (NSArray w)) (signalId : Int) (query : Obj_Query) :
    Option (Option (ShowResultViewController w)) :=
  match result with
  | [] => none
  | resultArray :: _ =>
    if signalId = 1 then
      if resultArray.count = 0 then none
      else some (opened resultArray (components query.query_columns))
    else none

/-- The page as a number. -/
def page (s : ShowResultViewController w) : Nat := s.showPageIndex.toNat

/-- The cells are those of `row`. -/
def Displays (s : ShowResultViewController w) (row : Row) : Prop :=
  s.cells = s.m_keyDataArray.map fun key => (key, objectForKey row key)

end ShowResultViewController

/-! ## SearchResultController -/

structure SearchResultController (w : Nat) where
  searchResults : NSArray w
  m_filterArray : List NSString
  curPage : BitVec w
  m_cur_dict : Option Row
  m_cur_keyArray : List NSString
  lbl_resultCount : NSString
  cells : List NSString

namespace SearchResultController

/-- What `%@` prints. -/
def printed : Option (Option NSString) → NSString
  | none => ns "(null)"
  | some none => ns "<null>"
  | some (some v) => v

/-- mirrors SearchResultController.m:90-99 -/
def cellText (dict : Option Row) (key : NSString) : NSString :=
  key ++ ns " : " ++ printed (dict.bind fun dict => objectForKey dict key)

def reloadData (s : SearchResultController w) : SearchResultController w :=
  { s with cells := s.m_cur_keyArray.map (cellText s.m_cur_dict) }

/-- The row at the new page is read and shown. -/
def showPage (s : SearchResultController w) (curPage : BitVec w) : Option (SearchResultController w) :=
  (s.searchResults.objectAtIndex curPage).map fun dict =>
    reloadData { s with curPage := curPage, m_cur_dict := some dict }

/-- mirrors SearchResultController.m:35-42 -/
def onBeforeResult (s : SearchResultController w) : Option (SearchResultController w) :=
  if s.curPage = 0 then some s else showPage s (s.curPage - 1)

/-- The results are set before the first tap, so they are not `nil`.
mirrors SearchResultController.m:44-51 -/
def onNextResult (s : SearchResultController w) : Option (SearchResultController w) :=
  if s.curPage = s.searchResults.count - 1 ∨ s.searchResults.count ≤ s.curPage then some s
  else showPage s (s.curPage + 1)

def tap (s : SearchResultController w) : Move → Option (SearchResultController w)
  | .before => onBeforeResult s
  | .next => onNextResult s

/-- mirrors SearchResultController.m:52-81 -/
def viewDidLoad (s : SearchResultController w) : Option (SearchResultController w) :=
  let s := { s with
    lbl_resultCount := ns "Search Result Count:" ++ Sql.intText s.searchResults.count.toInt }
  if 0 < s.searchResults.count then
    (s.searchResults.objectAtIndex 0).map fun dict =>
      reloadData
        { s with
          m_cur_dict := some dict
          m_cur_keyArray := (allKeys dict).filter fun key => key ∈ s.m_filterArray }
  else some (reloadData s)

/-- mirrors Con_SearchController.m:84-87 and SearchResultController.m:17-33 -/
def opened (array : NSArray w) (filter : List NSString) : Option (SearchResultController w) :=
  viewDidLoad ⟨array, filter, 0, none, [], [], []⟩

/-- mirrors Con_SearchController.m:80-88 -/
def pushed (result : List (NSArray w)) (m_confArray : List NSString) :
    Option (Option (SearchResultController w)) :=
  match result with
  | [] => none
  | resultArray :: _ => some (opened resultArray m_confArray)

def run (array : NSArray w) (filter : List NSString) (taps : List Move) :
    Option (SearchResultController w) :=
  (opened array filter).bind fun s => LTS.exec tap s taps

/-- The page as a number. -/
def page (s : SearchResultController w) : Nat := s.curPage.toNat

/-- The row that is kept and the cells are those of `row`. -/
def Displays (s : SearchResultController w) (row : Option Row) : Prop :=
  s.m_cur_dict = row ∧ s.cells = s.m_cur_keyArray.map (cellText row)

end SearchResultController

/-! ## Each tap is a move -/

/-- The page is one of the array, the label and the cells are those of the page. -/
structure ShowInv (array : NSArray w) (keys : List NSString) (s : ShowResultViewController w) : Prop where
  result : s.m_showResult = array
  keys : s.m_keyDataArray = keys
  page_lt : s.page < array.rows.length
  info : s.lbl_pageInfo = s.pageInfo
  shown : ∃ row, array.rows[s.page]? = some row ∧ s.Displays row

theorem show_page {array : NSArray w} {keys : List NSString} {s : ShowResultViewController w}
    (hr : s.m_showResult = array) (hk : s.m_keyDataArray = keys) {i : BitVec w}
    (hi : i.toNat < array.rows.length) :
    ∃ s', ShowResultViewController.showPage { s with showPageIndex := i } = some s' ∧
      ShowInv array keys s' ∧ s'.page = i.toNat := by
  obtain ⟨row, hrow⟩ : ∃ row, array.rows[i.toNat]? = some row := ⟨_, List.getElem?_eq_getElem hi⟩
  let drawn : ShowResultViewController w := { s with showPageIndex := i }
  have hcells : s.m_keyDataArray.mapM
      (ShowResultViewController.cellForRow { drawn with lbl_pageInfo := drawn.pageInfo }) =
        some (s.m_keyDataArray.map fun key => (key, objectForKey row key)) := by
    have hcell : ShowResultViewController.cellForRow { drawn with lbl_pageInfo := drawn.pageInfo } =
        fun key => pure (key, objectForKey row key) := by
      funext key
      rw [ShowResultViewController.cellForRow, NSArray.objectAtIndex]
      simp only [drawn, hr, hrow, Option.map_some]
      rfl
    rw [hcell]
    exact List.mapM_pure
  refine ⟨{ drawn with
    lbl_pageInfo := drawn.pageInfo
    cells := s.m_keyDataArray.map fun key => (key, objectForKey row key) }, ?_,
    ⟨hr, hk, hi, rfl, row, hrow, rfl⟩, rfl⟩
  rw [ShowResultViewController.showPage, ShowResultViewController.reloadData, hcells]
  rfl

theorem show_follows (array : NSArray w) (keys : List NSString) :
    Follows ShowResultViewController.tap array.rows.length (ShowInv array keys)
      ShowResultViewController.page := by
  intro s m h
  have hi := h.page_lt
  have hn := array.count_lt
  cases m with
  | before =>
    rw [ShowResultViewController.tap, ShowResultViewController.onGotoBefore, move]
    by_cases h0 : s.page = 0
    · exact ⟨s, if_pos ((sle_zero hi hn).mpr h0), h, by omega⟩
    · have hpred : (s.showPageIndex - 1).toNat = s.page - 1 := toNat_pred hi h0 hn
      rw [if_neg (mt (sle_zero hi hn).mp h0), ← hpred]
      exact show_page h.result h.keys (by omega)
  | next =>
    have hguard : s.m_showResult.count - 1 ≤ s.showPageIndex ↔ ¬ s.page + 1 < array.rows.length := by
      rw [h.result]
      exact pred_count_le hi hn
    rw [ShowResultViewController.tap, ShowResultViewController.onGotoNext, move]
    by_cases hlast : s.page + 1 < array.rows.length
    · have hsucc : (s.showPageIndex + 1).toNat = s.page + 1 := toNat_succ hlast hn
      rw [if_neg (mt hguard.mp (not_not.mpr hlast)), if_pos hlast, ← hsucc]
      exact show_page h.result h.keys (by omega)
    · exact ⟨s, if_pos (hguard.mpr hlast), h, by rw [if_neg hlast]⟩

theorem show_opened (array : NSArray w) (keys : List NSString) (h : array.rows ≠ []) :
    ∃ s, ShowResultViewController.opened array keys = some s ∧ ShowInv array keys s ∧ s.page = 0 := by
  have hlen : 0 < array.rows.length := List.length_pos_iff.mpr h
  have hzero : (0 : BitVec w).toNat = 0 := by simp
  obtain ⟨first, hfirst⟩ : ∃ first, array.objectAtIndex 0 = some first := by
    rw [NSArray.objectAtIndex, hzero]
    exact ⟨_, List.getElem?_eq_getElem hlen⟩
  have hi : (0 : BitVec w).toNat < array.rows.length := by omega
  obtain ⟨s, hs, hinv, hp⟩ := show_page (s := ⟨array, keys, 0, [], []⟩) rfl rfl hi
  rw [ShowResultViewController.opened, ShowResultViewController.setDataArray, hfirst, Option.map_some,
    Option.bind_some]
  exact ⟨s, hs, hinv, hp.trans hzero⟩

/-- The kept row is the one at the page; there is none in an empty array. -/
structure SearchInv (array : NSArray w) (filter : List NSString) (s : SearchResultController w) : Prop where
  results : s.searchResults = array
  filter : s.m_filterArray = filter
  page : s.page < array.rows.length ∨ array.rows.length = 0 ∧ s.page = 0
  shown : s.Displays (array.rows[s.page]?)

theorem search_page {array : NSArray w} {filter : List NSString} {s : SearchResultController w}
    (hr : s.searchResults = array) (hf : s.m_filterArray = filter) {i : BitVec w}
    (hi : i.toNat < array.rows.length) :
    ∃ s', s.showPage i = some s' ∧ SearchInv array filter s' ∧ s'.page = i.toNat := by
  obtain ⟨row, hrow⟩ : ∃ row, array.rows[i.toNat]? = some row := ⟨_, List.getElem?_eq_getElem hi⟩
  have hread : s.searchResults.objectAtIndex i = some row := by rw [NSArray.objectAtIndex, hr, hrow]
  rw [SearchResultController.showPage, hread]
  refine ⟨_, rfl, ⟨hr, hf, Or.inl hi, ?_⟩, rfl⟩
  show SearchResultController.Displays _ array.rows[i.toNat]?
  rw [hrow]
  exact ⟨rfl, rfl⟩

theorem search_follows (array : NSArray w) (filter : List NSString) :
    Follows SearchResultController.tap array.rows.length (SearchInv array filter)
      SearchResultController.page := by
  intro s m h
  have hn := array.count_lt
  cases m with
  | before =>
    rw [SearchResultController.tap, SearchResultController.onBeforeResult, move]
    have hzero : s.curPage = 0 ↔ s.page = 0 := by
      rw [SearchResultController.page, ← BitVec.toNat_inj]
      simp
    by_cases h0 : s.page = 0
    · exact ⟨s, if_pos (hzero.mpr h0), h, by omega⟩
    · have hi : s.page < array.rows.length := h.page.resolve_right fun he => h0 he.2
      have hpred : (s.curPage - 1).toNat = s.page - 1 := toNat_pred hi h0 hn
      rw [if_neg (mt hzero.mp h0), ← hpred]
      exact search_page h.results h.filter (by omega)
  | next =>
    have hguard : s.curPage = s.searchResults.count - 1 ∨ s.searchResults.count ≤ s.curPage ↔
        ¬ s.page + 1 < array.rows.length := by
      rw [h.results]
      have hle : array.count ≤ s.curPage ↔ array.rows.length ≤ s.page := count_le hn
      rcases h.page with hi | ⟨hempty, -⟩
      · have heq : s.curPage = array.count - 1 ↔ ¬ s.page + 1 < array.rows.length := eq_pred_count hi hn
        rw [heq, hle]
        omega
      · -- the first test compares with the word of ones, the second one stops
        rw [hle]
        exact ⟨fun _ => by omega, fun _ => Or.inr (by omega)⟩
    rw [SearchResultController.tap, SearchResultController.onNextResult, move]
    by_cases hlast : s.page + 1 < array.rows.length
    · have hsucc : (s.curPage + 1).toNat = s.page + 1 := toNat_succ hlast hn
      rw [if_neg (mt hguard.mp (not_not.mpr hlast)), if_pos hlast, ← hsucc]
      exact search_page h.results h.filter (by omega)
    · exact ⟨s, if_pos (hguard.mpr hlast), h, by rw [if_neg hlast]⟩

theorem search_opened (array : NSArray w) (filter : List NSString) :
    ∃ s, SearchResultController.opened array filter = some s ∧ SearchInv array filter s ∧ s.page = 0 := by
  have hzero : (0 : BitVec w).toNat = 0 := by simp
  have hcount : 0 < array.count ↔ 0 < array.rows.length := by
    rw [BitVec.lt_def, hzero, NSArray.count, toNat_count array.count_lt]
  rw [SearchResultController.opened, SearchResultController.viewDidLoad]
  by_cases hlen : 0 < array.rows.length
  · have hrow : array.rows[(0 : BitVec w).toNat]? = some array.rows[0] := by
      rw [hzero, List.getElem?_eq_getElem hlen]
    simp only [hcount, hlen, if_true, NSArray.objectAtIndex, hrow, Option.map_some]
    refine ⟨_, rfl, ⟨rfl, rfl, Or.inl (by rw [← hzero] at hlen; exact hlen), ?_⟩, hzero⟩
    show SearchResultController.Displays _ array.rows[(0 : BitVec w).toNat]?
    rw [hrow]
    exact ⟨rfl, rfl⟩
  · simp only [hcount, hlen, if_false]
    refine ⟨_, rfl, ⟨rfl, rfl, Or.inr ⟨by omega, hzero⟩, ?_⟩, hzero⟩
    show SearchResultController.Displays _ array.rows[(0 : BitVec w).toNat]?
    rw [List.getElem?_eq_none (by omega)]
    exact ⟨rfl, rfl⟩

/-! ## Any taps -/

/-- The check of the caller is what the first pager needs. -/
theorem show_pushed {result : List (NSArray w)} {signalId : Int} {query : Obj_Query}
    {pushed : Option (ShowResultViewController w)}
    (h : ShowResultViewController.pushed result signalId query = some pushed) :
    ∃ array s, result.head? = some array ∧ array.rows ≠ [] ∧ pushed = some s ∧
      ShowInv array (components query.query_columns) s := by
  unfold ShowResultViewController.pushed at h
  split at h
  · cases h
  rename_i array _
  split at h
  · split at h
    · cases h
    · rename_i hcount
      have hne : array.rows ≠ [] := by
        intro hnil
        exact hcount (by rw [NSArray.count, hnil]; rfl)
      obtain ⟨s, hs, hinv, -⟩ := show_opened array (components query.query_columns) hne
      rw [hs] at h
      exact ⟨array, s, rfl, hne, (Option.some.inj h).symm, hinv⟩
  · cases h

/-- The other pager opens for each answer with a result set. -/
theorem search_pushed {result : List (NSArray w)} {m_confArray : List NSString}
    {pushed : Option (SearchResultController w)}
    (h : SearchResultController.pushed result m_confArray = some pushed) :
    ∃ array s, result.head? = some array ∧ pushed = some s ∧ SearchInv array m_confArray s := by
  unfold SearchResultController.pushed at h
  split at h
  · cases h
  rename_i array _
  obtain ⟨s, hs, hinv, -⟩ := search_opened array m_confArray
  rw [hs] at h
  exact ⟨array, s, rfl, (Option.some.inj h).symm, hinv⟩

/-- **Paging.** For every array of rows and all taps the search pager reads no
row outside, its page is that of the walk that stops at both ends, and it shows
the row of this page, none in an empty array. If there is a row, the same holds
for the other pager, and both show the same row. -/
theorem paged (array : NSArray w) (keys filter : List NSString) (taps : List Move) :
    (∃ s, SearchResultController.run array filter taps = some s ∧
      s.page = walk array.rows.length 0 taps ∧ s.Displays (array.rows[s.page]?)) ∧
    (array.rows ≠ [] →
      ∃ s t row, ShowResultViewController.run array keys taps = some s ∧
        SearchResultController.run array filter taps = some t ∧
        s.page = walk array.rows.length 0 taps ∧ t.page = s.page ∧
        array.rows[s.page]? = some row ∧ s.Displays row ∧ t.Displays (some row)) := by
  obtain ⟨t₀, ht₀, hinv₀, hp₀⟩ := search_opened array filter
  obtain ⟨t, ht, hinv, hp⟩ := (search_follows array filter).exec hinv₀ taps
  rw [hp₀] at hp
  have hrun : SearchResultController.run array filter taps = some t := by
    rw [SearchResultController.run, ht₀, Option.bind_some, ht]
  refine ⟨⟨t, hrun, hp, hinv.shown⟩, fun hne => ?_⟩
  obtain ⟨s₀, hs₀, hsinv₀, hsp₀⟩ := show_opened array keys hne
  obtain ⟨s, hs, hsinv, hsp⟩ := (show_follows array keys).exec hsinv₀ taps
  rw [hsp₀] at hsp
  obtain ⟨row, hrow, hshown⟩ := hsinv.shown
  have hsame : t.page = s.page := hp.trans hsp.symm
  have htshown := hinv.shown
  rw [hsame, hrow] at htshown
  exact ⟨s, t, row, by rw [ShowResultViewController.run, hs₀, Option.bind_some, hs], hrun, hsp, hsame,
    hrow, hshown, htshown⟩

/-- Two rows. -/
def orders : NSArray 32 where
  rows := [[(ns "id", some (ns "1"))], [(ns "id", some (ns "2"))]]
  count_lt := by decide

theorem paged_orders :
    ∃ s t row, ShowResultViewController.run orders [ns "id"] [.next, .next, .before] = some s ∧
      SearchResultController.run orders [ns "id"] [.next, .next, .before] = some t ∧
      s.page = walk 2 0 [.next, .next, .before] ∧ t.page = s.page ∧
      orders.rows[s.page]? = some row ∧ s.Displays row ∧ t.Displays (some row) :=
  (paged orders [ns "id"] [ns "id"] [.next, .next, .before]).2 (by decide)

end MysqlConnection.L3.Pagers
