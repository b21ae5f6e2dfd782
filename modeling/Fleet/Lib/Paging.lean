/- Keyset pagination: the page after a position, and the walk from page to page. -/
import Mathlib.Data.List.Sort
import Mathlib.Order.Basic
import Mathlib.Tactic.Common

namespace Fleet.Lib

/-! ## One page -/

/-- Rows, the cursor of the next page and the number of rows in all pages. -/
structure Page (ρ γ : Type*) where
  items : List ρ
  nextCursor : Option γ
  hasMore : Bool
  totalCount : Nat

/-- The page that is made of at most `limit + 1` rows: the last of them only says that
there are more. -/
def Page.ofFetched {ρ γ : Type*} (limit : Nat) (encode : ρ → γ) (totalCount : Nat) (fetched : List ρ) :
    Page ρ γ :=
  let hasMore := limit < fetched.length
  let items := if hasMore then fetched.take limit else fetched
  { items, hasMore, nextCursor := if hasMore then items.getLast?.map encode else none, totalCount }

namespace Paging
variable {ρ κ : Type*}

/-- The last row of a page that leaves some rows. -/
def lastShown (limit : Nat) (rows : List ρ) : Option ρ :=
  if limit < rows.length then (rows.take limit).getLast? else none

theorem ofFetched_eq {γ : Type*} (limit : Nat) (encode : ρ → γ) (totalCount : Nat) (rows : List ρ) :
    Page.ofFetched limit encode totalCount (rows.take (limit + 1)) =
      ⟨rows.take limit, (lastShown limit rows).map encode, limit < rows.length, totalCount⟩ := by
  have more : limit < (rows.take (limit + 1)).length ↔ limit < rows.length := by
    rw [List.length_take]
    omega
  unfold Page.ofFetched lastShown
  simp only [more, List.take_take, Nat.min_eq_left (Nat.le_succ limit)]
  by_cases left : limit < rows.length
  · simp only [left, if_true, decide_true]
  · have all : rows.take (limit + 1) = rows.take limit := by
      rw [List.take_of_length_le (by omega), List.take_of_length_le (by omega)]
    simp only [left, if_false, all, decide_false, Option.map_none]

theorem lastShown_eq_none {limit : Nat} (positive : 1 ≤ limit) {rows : List ρ} :
    lastShown limit rows = none ↔ rows.length ≤ limit := by
  unfold lastShown
  split
  · rename_i left
    rw [List.getLast?_eq_none_iff, List.take_eq_nil_iff]
    constructor
    · rintro (none | rfl)
      · omega
      · simp at left
    · intro few
      omega
  · simp only [true_iff]
    omega

theorem lastShown_eq_some {limit : Nat} {rows : List ρ} {x : ρ} (shown : lastShown limit rows = some x) :
    ∃ front rest, rows = front ++ x :: rest ∧ rows.take limit = front ++ [x] := by
  unfold lastShown at shown
  split at shown
  · obtain ⟨front, page⟩ := List.getLast?_eq_some_iff.mp shown
    refine ⟨front, rows.drop limit, ?_, page⟩
    conv_lhs => rw [← List.take_append_drop limit rows, page]
    simp
  · cases shown

/-! ## The order of the rows -/

section order
variable [LinearOrder κ] (key : ρ → κ)

/-- `ORDER BY key`. -/
def ordered (rows : List ρ) : List ρ := rows.insertionSort (fun a b => key a ≤ key b)

/-- `WHERE key > position`. -/
def past (position : κ) (rows : List ρ) : List ρ := rows.filter (fun r => position < key r)

def Rising (rows : List ρ) : Prop := rows.Pairwise (fun a b => key a < key b)

variable {key}

theorem ordered_perm (rows : List ρ) : (ordered key rows).Perm rows := List.perm_insertionSort _ _

theorem mem_ordered {rows : List ρ} {r : ρ} : r ∈ ordered key rows ↔ r ∈ rows :=
  (ordered_perm rows).mem_iff

theorem mem_past {position : κ} {rows : List ρ} {r : ρ} :
    r ∈ past key position rows ↔ r ∈ rows ∧ position < key r := by
  rw [past, List.mem_filter, decide_eq_true_eq]

theorem Rising.past {position : κ} {rows : List ρ} (rising : Rising key rows) :
    Rising key (past key position rows) := List.Pairwise.filter _ rising

theorem ordered_rising {rows : List ρ} (distinct : (rows.map key).Nodup) : Rising key (ordered key rows) := by
  have : Std.Total (fun a b : ρ => key a ≤ key b) := ⟨fun a b => le_total (key a) (key b)⟩
  have : IsTrans ρ (fun a b => key a ≤ key b) := ⟨fun _ _ _ => le_trans⟩
  have sorted : (ordered key rows).Pairwise (fun a b => key a ≤ key b) := List.pairwise_insertionSort _ rows
  have apart : (ordered key rows).Pairwise (fun a b => key a ≠ key b) :=
    List.pairwise_map.mp (((ordered_perm rows).map key).nodup_iff.mpr distinct)
  exact (sorted.and apart).imp fun both => lt_of_le_of_ne both.1 both.2

theorem Rising.eq_of_perm {a b : List ρ} (first : Rising key a) (second : Rising key b) (perm : a.Perm b) :
    a = b :=
  perm.eq_of_pairwise (fun _ _ _ _ less more => absurd (lt_trans less more) (lt_irrefl _)) first second

theorem ordered_past {rows : List ρ} (distinct : (rows.map key).Nodup) (position : κ) :
    ordered key (past key position rows) = past key position (ordered key rows) := by
  have fewer : ((past key position rows).map key).Nodup :=
    distinct.sublist (List.filter_sublist.map key)
  exact (ordered_rising fewer).eq_of_perm (ordered_rising distinct).past
    ((ordered_perm _).trans ((ordered_perm rows).filter _).symm)

/-- What follows the position of a row is what stands behind it. -/
theorem past_middle {front rest : List ρ} {x : ρ} (rising : Rising key (front ++ x :: rest)) :
    past key (key x) (front ++ x :: rest) = rest := by
  obtain ⟨_, behind, before⟩ := List.pairwise_append.mp rising
  obtain ⟨above, _⟩ := List.pairwise_cons.mp behind
  have none : past key (key x) front = [] := by
    rw [past, List.filter_eq_nil_iff]
    intro r member
    simpa using (before r member x List.mem_cons_self).le
  have all : past key (key x) rest = rest := by
    rw [past, List.filter_eq_self]
    intro r member
    simpa using above r member
  rw [past, List.filter_append, List.filter_cons_of_neg (by simp)]
  change past key (key x) front ++ past key (key x) rest = rest
  rw [none, all, List.nil_append]

theorem past_past {low high : κ} (below : low < high) (rows : List ρ) :
    past key high (past key low rows) = past key high rows := by
  unfold past
  rw [List.filter_filter]
  apply List.filter_congr
  intro r _
  by_cases later : high < key r
  · simp [later, below.trans later]
  · simp [later]

theorem shown_append_past {limit : Nat} {rows : List ρ} {x : ρ} (rising : Rising key rows)
    (shown : lastShown limit rows = some x) :
    rows.take limit ++ past key (key x) rows = rows := by
  obtain ⟨front, rest, rfl, page⟩ := lastShown_eq_some shown
  rw [page, past_middle rising, List.append_assoc, List.singleton_append]

end order

/-! ## The walk -/

/-- A client asks for one page and then for what each answer says comes next; the `n`-th
request is answered by `ask n`. -/
inductive Walk {γ π ε : Type*} (ask : Nat → γ → Except ε π) (next : π → Option γ) :
    Nat → γ → List π → Prop
  | last {n g p} (answer : ask n g = .ok p) (done : next p = none) : Walk ask next n g [p]
  | more {n g p g' pages} (answer : ask n g = .ok p) (continues : next p = some g')
      (rest : Walk ask next (n + 1) g' pages) : Walk ask next n g (p :: pages)

theorem Walk.unique {γ π ε : Type*} {ask : Nat → γ → Except ε π} {next : π → Option γ} {n : Nat} {g : γ}
    {pages pages' : List π} (walk : Walk ask next n g pages) (other : Walk ask next n g pages') :
    pages = pages' := by
  induction walk generalizing pages' with
  | last answer done =>
      cases other with
      | last answer' done' =>
          cases answer.symm.trans answer'
          rfl
      | more answer' continues rest =>
          cases answer.symm.trans answer'
          cases done.symm.trans continues
  | more answer continues rest ih =>
      cases other with
      | last answer' done' =>
          cases answer.symm.trans answer'
          cases done'.symm.trans continues
      | more answer' continues' rest' =>
          cases answer.symm.trans answer'
          cases continues.symm.trans continues'
          rw [ih rest']

/-- The answer shows the first rows of a listing; where it leaves some, the next request
is for what follows the last row it shows. -/
structure Shows {γ π δ : Type*} (limit : Nat) (request : ρ → γ) (next : π → Option γ)
    (entries : π → List δ) (render : ρ → δ) (p : π) (rows : List ρ) : Prop where
  entries : entries p = (rows.take limit).map render
  next : next p = (lastShown limit rows).map request

section walk
variable {γ π δ ε : Type*} [LinearOrder κ] {key : ρ → κ} {limit : Nat} {request : ρ → γ}
  {next : π → Option γ} {entries : π → List δ} {render : ρ → δ} {ask : Nat → γ → Except ε π}
  {Placed : ρ → Prop}

/-- From the position of a row on: by induction on the rows that are left. -/
theorem walk_past (positive : 1 ≤ limit) {rows : List ρ} (rising : Rising key rows)
    (placed : ∀ x ∈ rows, Placed x) {n : Nat}
    (answers : ∀ m, n ≤ m → ∀ x, Placed x → ∃ p, ask m (request x) = .ok p ∧
      Shows limit request next entries render p (past key (key x) rows))
    {x : ρ} (start : Placed x) :
    ∃ pages, Walk ask next n (request x) pages ∧
      pages.flatMap entries = (past key (key x) rows).map render := by
  induction size : (past key (key x) rows).length using Nat.strong_induction_on generalizing n x with
  | _ count ih =>
  obtain ⟨p, answer, shows⟩ := answers n le_rfl x start
  cases shown : lastShown limit (past key (key x) rows) with
  | none =>
      have all := (lastShown_eq_none positive).mp shown
      refine ⟨[p], .last answer (by rw [shows.next, shown]; rfl), ?_⟩
      rw [List.flatMap_singleton, shows.entries, List.take_of_length_le all]
  | some y =>
      obtain ⟨front, rest, shape, page⟩ := lastShown_eq_some shown
      have member : y ∈ past key (key x) rows := by
        rw [shape]
        simp
      obtain ⟨inside, later⟩ := mem_past.mp member
      have left : past key (key y) rows = rest := by
        have tail : Rising key (front ++ y :: rest) := shape ▸ rising.past
        rw [← past_past later, shape, past_middle tail]
      have fewer : (past key (key y) rows).length < count := by
        rw [← size, left, shape, List.length_append, List.length_cons]
        omega
      obtain ⟨pages, walk, entered⟩ := ih _ fewer (n := n + 1)
        (fun m above => answers m (by omega)) (placed y inside) rfl
      refine ⟨p :: pages, .more answer (by rw [shows.next, shown]; rfl) walk, ?_⟩
      rw [List.flatMap_cons, shows.entries, entered, page, left, shape]
      simp

/-- What the client gets where the first page is cut from one listing and the later ones
from another. -/
def enumerated (key : ρ → κ) (limit : Nat) (first later : List ρ) : List ρ :=
  first.take limit ++
    match lastShown limit first with
    | none => []
    | some x => past key (key x) later

theorem walk_start (positive : 1 ≤ limit) {first later : List ρ} (rising : Rising key later)
    (placed : ∀ x ∈ first ++ later, Placed x) {n : Nat} {start : γ} {p : π} (answer : ask n start = .ok p)
    (shows : Shows limit request next entries render p first)
    (answers : ∀ m, n < m → ∀ x, Placed x → ∃ p, ask m (request x) = .ok p ∧
      Shows limit request next entries render p (past key (key x) later)) :
    ∃ pages, Walk ask next n start pages ∧
      pages.flatMap entries = (enumerated key limit first later).map render := by
  unfold enumerated
  cases shown : lastShown limit first with
  | none =>
      refine ⟨[p], .last answer (by rw [shows.next, shown]; rfl), ?_⟩
      rw [List.flatMap_singleton, shows.entries, List.append_nil]
  | some x =>
      obtain ⟨front, rest, shape, _⟩ := lastShown_eq_some shown
      obtain ⟨pages, walk, entered⟩ := walk_past positive rising
        (fun y member => placed y (List.mem_append_right _ member)) (n := n + 1) answers
        (placed x (List.mem_append_left _ (by rw [shape]; simp)))
      refine ⟨p :: pages, .more answer (by rw [shows.next, shown]; rfl) walk, ?_⟩
      rw [List.flatMap_cons, shows.entries, entered, ← List.map_append]

/-- A row stands behind the last one shown where as many rows stand before it as a page
has. -/
theorem lastShown_lt_iff {rows : List ρ} (rising : Rising key rows) {x : ρ}
    (shown : lastShown limit rows = some x) (r : ρ) :
    key x < key r ↔ limit ≤ (rows.filter fun m => key m < key r).length := by
  obtain ⟨front, rest, rfl, page⟩ := lastShown_eq_some shown
  have size : front.length + 1 = limit := by
    have left : limit < (front ++ x :: rest).length := by
      unfold lastShown at shown
      split at shown
      · assumption
      · cases shown
    have length := congrArg List.length page
    rw [List.length_take, Nat.min_eq_left left.le] at length
    simpa using length.symm
  obtain ⟨_, behind, before⟩ := List.pairwise_append.mp rising
  obtain ⟨above, _⟩ := List.pairwise_cons.mp behind
  constructor
  · intro later
    have inside : (front ++ [x]).Sublist ((front ++ x :: rest).filter fun m => key m < key r) := by
      have all : (front ++ [x]).filter (fun m => key m < key r) = front ++ [x] := by
        rw [List.filter_eq_self]
        intro m member
        rw [decide_eq_true_eq]
        rcases List.mem_append.mp member with first | last
        · exact (before m first x List.mem_cons_self).trans later
        · rwa [List.mem_singleton.mp last]
      rw [← all]
      exact List.Sublist.filter _
        (List.Sublist.append_left (List.cons_sublist_cons.mpr (List.nil_sublist _)) _)
    have length := inside.length_le
    rw [List.length_append, List.length_singleton, size] at length
    exact length
  · intro many
    by_contra early
    have none : (x :: rest).filter (fun m => key m < key r) = [] := by
      rw [List.filter_eq_nil_iff]
      intro m member
      rw [decide_eq_true_eq, not_lt]
      rcases List.mem_cons.mp member with rfl | later
      · exact not_lt.mp early
      · exact (not_lt.mp early).trans (above m later).le
    rw [List.filter_append, none, List.append_nil] at many
    have few := List.length_filter_le (fun m => key m < key r) front
    omega

/-- One page holds all rows of the first listing, or behind its limit both listings have
the same rows. -/
def Continues (key : ρ → κ) (limit : Nat) (first later : List ρ) : Prop :=
  first.length ≤ limit ∨
    ∀ r, limit ≤ (first.filter fun m => key m < key r).length → (r ∈ later ↔ r ∈ first)

/-- The client gets the rows of the first listing exactly where the second one continues
it. -/
theorem enumerated_iff (positive : 1 ≤ limit) {first later : List ρ} (rising : Rising key first)
    (rising' : Rising key later) :
    ((enumerated key limit first later).Nodup ∧ ∀ r, r ∈ enumerated key limit first later ↔ r ∈ first) ↔
      Continues key limit first later := by
  have distinct : ∀ {l : List ρ}, Rising key l → l.Nodup := by
    intro l sorted
    exact sorted.imp fun less same => absurd (same ▸ less) (lt_irrefl _)
  unfold enumerated Continues
  cases shown : lastShown limit first with
  | none =>
      have few := (lastShown_eq_none positive).mp shown
      rw [List.append_nil, List.take_of_length_le few]
      exact ⟨fun _ => .inl few, fun _ => ⟨distinct rising, fun _ => Iff.rfl⟩⟩
  | some x =>
      have more : ¬ first.length ≤ limit := by
        intro few
        rw [(lastShown_eq_none positive).mpr few] at shown
        cases shown
      have whole := shown_append_past rising shown
      have shownBefore : ∀ r ∈ first.take limit, ¬ key x < key r := by
        obtain ⟨front, rest, shape, page⟩ := lastShown_eq_some shown
        intro r member
        rw [page] at member
        rw [shape] at rising
        rcases List.mem_append.mp member with before | same
        · exact not_lt_of_gt ((List.pairwise_append.mp rising).2.2 r before x List.mem_cons_self)
        · rw [List.mem_singleton.mp same]
          exact lt_irrefl _
      simp only [← lastShown_lt_iff rising shown, more, false_or]
      constructor
      · rintro ⟨_, same⟩ r behind
        constructor
        · intro inside
          exact (same r).mp (List.mem_append_right _ (mem_past.mpr ⟨inside, behind⟩))
        · intro inside
          rcases List.mem_append.mp ((same r).mpr inside) with page | rest
          · exact absurd behind (shownBefore r page)
          · exact (mem_past.mp rest).1
      · intro same
        have equal : past key (key x) later = past key (key x) first := by
          apply rising'.past.eq_of_perm rising.past
          rw [List.perm_ext_iff_of_nodup (distinct rising'.past) (distinct rising.past)]
          intro r
          rw [mem_past, mem_past]
          exact and_congr_left fun behind => same r behind
        rw [equal, whole]
        exact ⟨distinct rising, fun _ => Iff.rfl⟩

theorem mem_enumerated {first later : List ρ} {r : ρ} (member : r ∈ enumerated key limit first later) :
    r ∈ first ++ later := by
  rcases List.mem_append.mp member with page | rest
  · exact List.mem_append_left _ (List.mem_of_mem_take page)
  · split at rest
    · cases rest
    · exact List.mem_append_right _ (mem_past.mp rest).1

theorem continues_perm {first first' later later' : List ρ} (perm : first.Perm first')
    (perm' : later.Perm later') :
    Continues key limit first later ↔ Continues key limit first' later' := by
  unfold Continues
  have counts : ∀ r, (first.filter fun m => key m < key r).length =
      (first'.filter fun m => key m < key r).length := fun r => (perm.filter _).length_eq
  simp only [perm.length_eq, counts, perm.mem_iff, perm'.mem_iff]

theorem map_exact_iff {rows listed : List ρ} (apart : Set.InjOn render {r | r ∈ rows ++ listed}) :
    ((rows.map render).Nodup ∧ ∀ e, e ∈ rows.map render ↔ ∃ r ∈ listed, e = render r) ↔
      rows.Nodup ∧ ∀ r, r ∈ rows ↔ r ∈ listed := by
  have same : ∀ {a b}, a ∈ rows ++ listed → b ∈ rows ++ listed → render a = render b → a = b :=
    fun first second equal => apart first second equal
  constructor
  · rintro ⟨distinct, all⟩
    refine ⟨distinct.of_map, fun r => ⟨fun member => ?_, fun member => ?_⟩⟩
    · obtain ⟨r', inside, equal⟩ := (all (render r)).mp (List.mem_map_of_mem member)
      exact same (List.mem_append_left _ member) (List.mem_append_right _ inside) equal ▸ inside
    · obtain ⟨r', inside, equal⟩ := List.mem_map.mp ((all (render r)).mpr ⟨r, member, rfl⟩)
      exact same (List.mem_append_left _ inside) (List.mem_append_right _ member) equal ▸ inside
  · rintro ⟨distinct, all⟩
    refine ⟨distinct.map_on fun a first b second => ?_, fun e => ?_⟩
    · exact same (List.mem_append_left _ first) (List.mem_append_left _ second)
    · rw [List.mem_map]
      constructor
      · rintro ⟨r, member, rfl⟩
        exact ⟨r, (all r).mp member, rfl⟩
      · rintro ⟨r, member, rfl⟩
        exact ⟨r, (all r).mpr member, rfl⟩

end walk

/-! ## Exact pagination -/

def following [LinearOrder κ] (key : ρ → κ) : Option ρ → List ρ → List ρ
  | none, rows => rows
  | some x, rows => past key (key x) rows

section serves
variable {σ γ π ε : Type*} [LinearOrder κ]

/-- Following the cursors of a listing from its first page gives the rows that `Lists` says,
in the order of their keys. -/
structure Exact (ask : σ → γ → Except ε π) (start : γ) (next : π → Option γ) (items : π → List ρ)
    (key : ρ → κ) (Lists : σ → ρ → Prop) : Prop where
  /-- In a store that does not change: in finitely many pages, each row once. -/
  whole : ∀ s p, ask s start = .ok p → ∃ pages, Walk (fun _ => ask s) next 0 start pages ∧
    Rising key (pages.flatMap items) ∧ ∀ r, r ∈ pages.flatMap items ↔ Lists s r
  /-- Whatever happens to the store between two requests: no key comes twice, and one that
  is listed throughout comes once. -/
  meanwhile : ∀ (s : Nat → σ) pages, Walk (fun n => ask (s n)) next 0 start pages →
    Rising key (pages.flatMap items) ∧ (∀ r ∈ pages.flatMap items, ∃ n, Lists (s n) r) ∧
      ∀ k, (∀ n, ∃ r, Lists (s n) r ∧ key r = k) → ((pages.flatMap items).map key).count k = 1
  /-- The client is done once the store comes to rest. -/
  settles : ∀ s : Nat → σ, (∀ n, ∃ p, ask (s n) start = .ok p) → (∃ N, ∀ n, N ≤ n → s n = s N) →
    ∃ pages, Walk (fun n => ask (s n)) next 0 start pages

structure Serves (limit : Nat) (ask : σ → γ → Except ε π) (request : Option ρ → γ) (next : π → Option γ)
    (items : π → List ρ) (key : ρ → κ) (rows : σ → List ρ) (Placed : ρ → Prop) : Prop where
  rising : ∀ s, Rising key (rows s)
  placed : ∀ s, ∀ x ∈ rows s, Placed x
  shows : ∀ s o p, (∀ x ∈ o, Placed x) → ask s (request o) = .ok p →
    Shows limit (fun x => request (some x)) next items id p (following key o (rows s))
  answers : ∀ s p, ask s (request none) = .ok p → ∀ x, Placed x → ∃ p, ask s (request (some x)) = .ok p

variable {limit : Nat} {ask : σ → γ → Except ε π} {request : Option ρ → γ} {next : π → Option γ}
  {items : π → List ρ} {key : ρ → κ} {rows : σ → List ρ} {Placed : ρ → Prop}

theorem Exact.congr {start : γ} {Lists Lists' : σ → ρ → Prop} (exactly : Exact ask start next items key Lists)
    (same : ∀ s r, Lists s r ↔ Lists' s r) : Exact ask start next items key Lists' := by
  have equal : Lists = Lists' := by
    funext s r
    exact propext (same s r)
  exact equal ▸ exactly

/-- A listing whose first page is refused in every store is not walked at all. -/
theorem Exact.of_error {start : γ} {Lists : σ → ρ → Prop} (fails : ∀ s, ∃ e, ask s start = .error e) :
    Exact ask start next items key Lists := by
  have never : ∀ s p, ask s start ≠ .ok p := by
    intro s p answer
    obtain ⟨e, failed⟩ := fails s
    cases answer.symm.trans failed
  constructor
  · intro s p answer
    exact absurd answer (never s p)
  · intro s pages walk
    cases walk with
    | last answer _ => exact absurd answer (never _ _)
    | more answer _ _ => exact absurd answer (never _ _)
  · intro s first _
    obtain ⟨p, answer⟩ := first 0
    exact absurd answer (never _ p)

theorem mem_following {o : Option ρ} {l : List ρ} {r : ρ} :
    r ∈ following key o l ↔ r ∈ l ∧ ∀ x ∈ o, key x < key r := by
  cases o with
  | none => simp [following]
  | some x => simp [following, mem_past]

theorem Rising.following {l : List ρ} (rising : Rising key l) (o : Option ρ) :
    Rising key (following key o l) := by
  cases o with
  | none => exact rising
  | some x => exact rising.past

theorem Rising.keys_nodup {l : List ρ} (rising : Rising key l) : (l.map key).Nodup :=
  List.pairwise_map.mpr (rising.imp fun less => less.ne)

namespace Serves

theorem last_page (serves : Serves limit ask request next items key rows Placed) (positive : 1 ≤ limit)
    {s : σ} {o : Option ρ} {p : π} (start : ∀ x ∈ o, Placed x) (answer : ask s (request o) = .ok p)
    (done : next p = none) : items p = Paging.following key o (rows s) := by
  have shows := serves.shows s o p start answer
  rw [shows.next, Option.map_eq_none_iff, lastShown_eq_none positive] at done
  rw [shows.entries, List.map_id, List.take_of_length_le done]

theorem inner_page (serves : Serves limit ask request next items key rows Placed) {s : σ} {o : Option ρ}
    {p : π} {g : γ} (start : ∀ x ∈ o, Placed x) (answer : ask s (request o) = .ok p)
    (continues : next p = some g) :
    ∃ front y rest, Paging.following key o (rows s) = front ++ y :: rest ∧ items p = front ++ [y] ∧
      g = request (some y) ∧ y ∈ rows s := by
  have shows := serves.shows s o p start answer
  rw [shows.next] at continues
  obtain ⟨y, shown, rfl⟩ := Option.map_eq_some_iff.mp continues
  obtain ⟨front, rest, shape, page⟩ := lastShown_eq_some shown
  have inside : y ∈ Paging.following key o (rows s) := by
    rw [shape]
    simp
  exact ⟨front, y, rest, shape, by rw [shows.entries, List.map_id, page], rfl, (mem_following.mp inside).1⟩

/-- By induction on the walk: later pages stay past the last row of this one. -/
theorem walk_rising (serves : Serves limit ask request next items key rows Placed) (positive : 1 ≤ limit)
    {s : Nat → σ} {n : Nat} {g : γ} {pages : List π} (walk : Walk (fun n => ask (s n)) next n g pages)
    {o : Option ρ} (start : ∀ x ∈ o, Placed x) (asked : g = request o) :
    Rising key (pages.flatMap items) ∧
      (∀ r ∈ pages.flatMap items, (∀ x ∈ o, key x < key r) ∧ ∃ n, r ∈ rows (s n)) ∧
      ∀ k, (∀ x ∈ o, key x < k) → (∀ m, ∃ r ∈ rows (s m), key r = k) →
        ∃ r ∈ pages.flatMap items, key r = k := by
  induction walk generalizing o with
  | @last n g p answer done =>
      subst asked
      have page := serves.last_page positive start answer done
      rw [List.flatMap_singleton, page]
      refine ⟨(serves.rising _).following o, ?_, ?_⟩
      · intro r member
        obtain ⟨inside, later⟩ := mem_following.mp member
        exact ⟨later, n, inside⟩
      · intro k above throughout
        obtain ⟨r, inside, rfl⟩ := throughout n
        exact ⟨r, mem_following.mpr ⟨inside, above⟩, rfl⟩
  | @more n g p g' pages answer continues rest ih =>
      subst asked
      obtain ⟨front, y, behind, shape, page, rfl, inside⟩ := serves.inner_page start answer continues
      have placed : ∀ x ∈ some y, Placed x := by
        rintro x ⟨⟩
        exact serves.placed _ y inside
      obtain ⟨later, bounds, found⟩ := ih placed rfl
      have all : Rising key (front ++ y :: behind) := shape ▸ (serves.rising (s n)).following o
      obtain ⟨_, tail, before⟩ := List.pairwise_append.mp all
      have own : ∀ r ∈ front ++ [y], key r ≤ key y ∧ r ∈ Paging.following key o (rows (s n)) := by
        intro r member
        rw [shape]
        rcases List.mem_append.mp member with first | same
        · exact ⟨(before r first y List.mem_cons_self).le, List.mem_append_left _ first⟩
        · rw [List.mem_singleton.mp same]
          exact ⟨le_rfl, by simp⟩
      rw [List.flatMap_cons, page]
      refine ⟨?_, ?_, ?_⟩
      · refine List.pairwise_append.mpr ⟨?_, later, ?_⟩
        · exact all.sublist (List.Sublist.append_left (List.cons_sublist_cons.mpr (List.nil_sublist _)) _)
        · intro a first b second
          exact lt_of_le_of_lt (own a first).1 ((bounds b second).1 y rfl)
      · intro r member
        rcases List.mem_append.mp member with first | second
        · obtain ⟨now, past⟩ := mem_following.mp (own r first).2
          exact ⟨past, n, now⟩
        · obtain ⟨past, m, then'⟩ := bounds r second
          have position := (mem_following.mp (own y (by simp)).2).2
          exact ⟨fun x given => (position x given).trans (past y rfl), m, then'⟩
      · intro k above throughout
        rcases lt_or_ge (key y) k with beyond | within
        · obtain ⟨r, member, same⟩ := found k (by rintro x ⟨⟩; exact beyond) throughout
          exact ⟨r, List.mem_append_right _ member, same⟩
        · obtain ⟨r, now, rfl⟩ := throughout n
          have member : r ∈ front ++ y :: behind := shape ▸ mem_following.mpr ⟨now, above⟩
          refine ⟨r, List.mem_append_left _ ?_, rfl⟩
          rcases List.mem_append.mp member with first | second
          · exact List.mem_append_left _ first
          · rcases List.mem_cons.mp second with rfl | third
            · simp
            · exact absurd ((List.pairwise_cons.mp tail).1 r third) (not_lt_of_ge within)

theorem walk_rest (serves : Serves limit ask request next items key rows Placed) (positive : 1 ≤ limit)
    {s : Nat → σ} {N : Nat} (rest : ∀ n, N ≤ n → s n = s N)
    (answered : ∀ n x, Placed x → ∃ p, ask (s n) (request (some x)) = .ok p) {n : Nat} (late : N ≤ n)
    {x : ρ} (start : Placed x) :
    ∃ pages, Walk (fun n => ask (s n)) next n (request (some x)) pages := by
  have answers : ∀ m, n ≤ m → ∀ x, Placed x → ∃ p, ask (s m) (request (some x)) = .ok p ∧
      Shows limit (fun x => request (some x)) next items id p (past key (key x) (rows (s N))) := by
    intro m after x placed
    obtain ⟨p, answer⟩ := answered m x placed
    have shows := serves.shows (s m) (some x) p (by rintro y ⟨⟩; exact placed) answer
    rw [rest m (late.trans after)] at shows
    exact ⟨p, answer, shows⟩
  obtain ⟨pages, walk, _⟩ := walk_past positive (serves.rising (s N)) (serves.placed (s N)) answers start
  exact ⟨pages, walk⟩

/-- By induction on the requests before the store comes to rest. -/
theorem walk_settles (serves : Serves limit ask request next items key rows Placed)
    (positive : 1 ≤ limit) {s : Nat → σ} {N : Nat} (rest : ∀ n, N ≤ n → s n = s N)
    (answered : ∀ n x, Placed x → ∃ p, ask (s n) (request (some x)) = .ok p) (left : Nat) {n : Nat}
    (distance : N ≤ n + left) {x : ρ} (start : Placed x) :
    ∃ pages, Walk (fun n => ask (s n)) next n (request (some x)) pages := by
  induction left generalizing n x with
  | zero => exact serves.walk_rest positive rest answered distance start
  | succ left ih =>
      obtain ⟨p, answer⟩ := answered n x start
      cases continues : next p with
      | none => exact ⟨[p], .last answer continues⟩
      | some g =>
          obtain ⟨_, y, _, _, _, rfl, inside⟩ := serves.inner_page
            (o := some x) (by rintro z ⟨⟩; exact start) answer continues
          obtain ⟨pages, walk⟩ := ih (n := n + 1) (by omega) (serves.placed _ y inside)
          exact ⟨p :: pages, .more answer continues walk⟩

theorem toExact (serves : Serves limit ask request next items key rows Placed) (positive : 1 ≤ limit) :
    Exact ask (request none) next items key (fun s r => r ∈ rows s) where
  whole s p answer := by
    have answers : ∀ m, 0 < m → ∀ x, Placed x → ∃ p, ask s (request (some x)) = .ok p ∧
        Shows limit (fun x => request (some x)) next items id p (past key (key x) (rows s)) := by
      intro _ _ x placed
      obtain ⟨p, next⟩ := serves.answers s p answer x placed
      exact ⟨p, next, serves.shows s (some x) p (by rintro y ⟨⟩; exact placed) next⟩
    have shows := serves.shows s none p (by simp) answer
    have walked : ∃ pages, Walk (fun _ => ask s) next 0 (request none) pages ∧
        pages.flatMap items = (enumerated key limit (rows s) (rows s)).map id :=
      walk_start positive (serves.rising s) (fun x member => serves.placed s x (by simpa using member))
        answer shows answers
    obtain ⟨pages, walk, _⟩ := walked
    obtain ⟨rising, bounds, found⟩ := serves.walk_rising positive (s := fun _ => s) walk
      (o := none) (by simp) rfl
    refine ⟨pages, walk, rising, fun r => ⟨fun member => ?_, fun listed => ?_⟩⟩
    · obtain ⟨_, _, inside⟩ := bounds r member
      exact inside
    · obtain ⟨r', member, same⟩ := found (key r) (by simp) fun _ => ⟨r, listed, rfl⟩
      obtain ⟨_, _, inside⟩ := bounds r' member
      have equal : r' = r := List.inj_on_of_nodup_map (serves.rising s).keys_nodup inside listed same
      exact equal ▸ member
  meanwhile s pages walk := by
    obtain ⟨rising, bounds, found⟩ := serves.walk_rising positive walk (o := none) (by simp) rfl
    refine ⟨rising, fun r member => (bounds r member).2, fun k throughout => ?_⟩
    apply List.count_eq_one_of_mem rising.keys_nodup
    obtain ⟨r, member, same⟩ := found k (by simp) throughout
    exact List.mem_map.mpr ⟨r, member, same⟩
  settles s first rest := by
    obtain ⟨N, rest⟩ := rest
    have answered : ∀ n x, Placed x → ∃ p, ask (s n) (request (some x)) = .ok p := by
      intro n x placed
      obtain ⟨p, answer⟩ := first n
      exact serves.answers (s n) p answer x placed
    obtain ⟨p, answer⟩ := first 0
    cases continues : next p with
    | none => exact ⟨[p], .last answer continues⟩
    | some g =>
        obtain ⟨_, y, _, _, _, rfl, inside⟩ := serves.inner_page (o := none) (by simp) answer continues
        obtain ⟨pages, walk⟩ := serves.walk_settles positive rest answered N (n := 1) (by omega)
          (serves.placed _ y inside)
        exact ⟨p :: pages, .more answer continues walk⟩

end Serves
end serves
end Paging
end Fleet.Lib
