/- URLs as `urllib.parse` splits them. -/
import Fleet.Lib.Text

namespace Fleet.Lib.Urllib

structure Parts where
  scheme : List Char
  netloc : List Char
  path : List Char
  query : List Char
  fragment : List Char
  deriving DecidableEq

def isSchemeChar (c : Char) : Bool := c.isAlphanum || c = '+' || c = '-' || c = '.'

/-- A scheme starts with a letter and ends at the first colon. -/
def splitScheme (text : List Char) : List Char × List Char :=
  match cut ':' text with
  | some (scheme, rest) =>
      if scheme.head?.any Char.isAlpha && scheme.all isSchemeChar then (scheme.map Char.toLower, rest)
      else ([], text)
  | none => ([], text)

def isNetlocChar (c : Char) : Bool := c ≠ '/' && c ≠ '?' && c ≠ '#'

def splitNetloc : List Char → List Char × List Char
  | '/' :: '/' :: rest => (rest.takeWhile isNetlocChar, rest.dropWhile isNetlocChar)
  | text => ([], text)

/-- What stands before and after the first mark, which may be missing. -/
def splitAt (mark : Char) (text : List Char) : List Char × List Char := (cut mark text).getD (text, [])

/-- `urlsplit`, apart from its check of the brackets and of the normal form of a
network location, which raises. -/
def urlsplit (url : String) : Parts :=
  let text := (url.toList.dropWhile fun c => c.toNat ≤ 32).filter fun c =>
    c ≠ '\t' ∧ c ≠ '\r' ∧ c ≠ '\n'
  let (scheme, text) := splitScheme text
  let (netloc, text) := splitNetloc text
  let (text, fragment) := splitAt '#' text
  let (path, query) := splitAt '?' text
  { scheme, netloc, path, query, fragment }

def usesParams : List String :=
  ["", "ftp", "hdl", "prospero", "http", "imap", "https", "shttp", "rtsp", "rtsps", "rtspu", "sip",
    "sips", "mms", "sftp", "tel"]

def lastSegment (path : List Char) : List Char := (path.reverse.takeWhile fun c => c ≠ '/').reverse

/-- A path without the parameters of its last segment. -/
def withoutParams (path : List Char) : List Char :=
  (path.reverse.dropWhile fun c => c ≠ '/').reverse ++ (splitAt ';' (lastSegment path)).1

/-- `urlparse(url).path`. -/
def parsedPath (url : String) : List Char :=
  let parts := urlsplit url
  if String.ofList parts.scheme ∈ usesParams then withoutParams parts.path else parts.path

example : parsedPath "https://agent.example.com/done;v=2?task=1#top" = "/done".toList := by decide

/-! ## What the parts leave out -/

theorem splitAt_absent {mark : Char} {text : List Char} (absent : mark ∉ text) :
    splitAt mark text = (text, []) := by
  rw [splitAt, cut_eq_none.mpr absent]
  rfl

theorem splitAt_front (mark : Char) (text : List Char) :
    mark ∉ (splitAt mark text).1 ∧ ∀ c ∈ (splitAt mark text).1, c ∈ text := by
  cases found : cut mark text with
  | none =>
      rw [splitAt, found]
      exact ⟨cut_eq_none.mp found, fun c member => member⟩
  | some halves =>
      obtain ⟨front, rest⟩ := halves
      obtain ⟨absent, rfl⟩ := cut_eq_some.mp found
      rw [splitAt, found]
      exact ⟨absent, fun c member => List.mem_append_left _ member⟩

theorem path_plain (url : String) : '?' ∉ (urlsplit url).path := (splitAt_front '?' _).1

theorem lastSegment_split (path : List Char) :
    (path.reverse.dropWhile fun c => c ≠ '/').reverse ++ lastSegment path = path := by
  rw [lastSegment, ← List.reverse_append, List.takeWhile_append_dropWhile, List.reverse_reverse]

theorem withoutParams_eq {path : List Char} (plain : ';' ∉ lastSegment path) :
    withoutParams path = path := by
  rw [withoutParams, splitAt_absent plain, lastSegment_split]

theorem withoutParams_subset (path : List Char) : ∀ c ∈ withoutParams path, c ∈ path := by
  intro c member
  rw [← lastSegment_split path]
  rcases List.mem_append.mp member with front | last
  · exact List.mem_append_left _ front
  · exact List.mem_append_right _ ((splitAt_front ';' _).2 c last)

theorem takeWhile_dropWhile_nil {α : Type} (p : α → Bool) (l : List α) :
    (l.dropWhile p).takeWhile p = [] := by
  induction l with
  | nil => rfl
  | cons a l ih =>
      by_cases h : p a = true
      · rw [List.dropWhile_cons_of_pos h, ih]
      · rw [List.dropWhile_cons_of_neg h, List.takeWhile_cons_of_neg h]

theorem lastSegment_append {path last : List Char} (plain : '/' ∉ last) :
    lastSegment ((path.reverse.dropWhile fun c => c ≠ '/').reverse ++ last) = last := by
  have inside : ∀ c ∈ last.reverse, decide (c ≠ '/') = true := by
    intro c member
    rw [decide_eq_true_eq]
    rintro rfl
    exact plain (List.mem_reverse.mp member)
  rw [lastSegment, List.reverse_append, List.reverse_reverse, List.takeWhile_append_of_pos inside,
    takeWhile_dropWhile_nil, List.append_nil, List.reverse_reverse]

theorem lastSegment_plain (path : List Char) : '/' ∉ lastSegment path := by
  intro member
  have other := List.all_eq_true.mp List.all_takeWhile _ (List.mem_reverse.mp member)
  simp at other

theorem lastSegment_withoutParams (path : List Char) : ';' ∉ lastSegment (withoutParams path) := by
  obtain ⟨absent, inside⟩ := splitAt_front ';' (lastSegment path)
  rw [withoutParams, lastSegment_append fun member => lastSegment_plain path (inside _ member)]
  exact absent

/-! ## Paths of plain segments -/

/-- The characters that a URL holds unescaped and that end none of its parts. -/
def isUnreserved (c : Char) : Bool := c.isAlphanum || c = '-' || c = '.' || c = '_' || c = '~'

def PlainSegment (segment : List Char) : Prop := segment ≠ [] ∧ ∀ c ∈ segment, isUnreserved c = true

def joinPath (segments : List (List Char)) : List Char := segments.flatMap fun segment => '/' :: segment

theorem PlainSegment.absent {segment : List Char} (plain : PlainSegment segment) {mark : Char}
    (reserved : isUnreserved mark = false) : mark ∉ segment := by
  intro member
  rw [plain.2 mark member] at reserved
  cases reserved

theorem joinPath_absent {segments : List (List Char)} (plain : ∀ s ∈ segments, PlainSegment s)
    {mark : Char} (reserved : isUnreserved mark = false) (other : mark ≠ '/') :
    mark ∉ joinPath segments := by
  simp only [joinPath, List.mem_flatMap, List.mem_cons, not_exists, not_and, not_or]
  exact fun s member => ⟨other, (plain s member).absent reserved⟩

theorem splitOn_joinPath {segments : List (List Char)} (plain : ∀ s ∈ segments, PlainSegment s) :
    (joinPath segments).splitOn '/' = [] :: segments := by
  suffices front : ∀ first : List Char, '/' ∉ first →
      (first ++ joinPath segments).splitOn '/' = first :: segments from front [] List.not_mem_nil
  induction segments with
  | nil =>
      intro first absent
      rw [joinPath, List.flatMap_nil, List.append_nil, List.splitOn_eq_singleton absent]
  | cons segment segments ih =>
      intro first absent
      have later := ih (fun s member => plain s (List.mem_cons_of_mem _ member)) segment
        ((plain segment List.mem_cons_self).absent (by decide))
      rw [joinPath, List.flatMap_cons, List.cons_append,
        List.splitOn_append_cons_self_of_not_mem absent, ← joinPath, later]

theorem urlsplit_joinPath {segments : List (List Char)} (plain : ∀ s ∈ segments, PlainSegment s) :
    urlsplit (String.ofList (joinPath segments)) =
      { scheme := [], netloc := [], path := joinPath segments, query := [], fragment := [] } := by
  have absent : ∀ mark : Char, isUnreserved mark = false → mark ≠ '/' → mark ∉ joinPath segments :=
    fun mark reserved other => joinPath_absent plain reserved other
  have kept : (joinPath segments).filter (fun c => c ≠ '\t' ∧ c ≠ '\r' ∧ c ≠ '\n') =
      joinPath segments := by
    rw [List.filter_eq_self]
    intro c member
    have away : ∀ mark : Char, isUnreserved mark = false → mark ≠ '/' → c ≠ mark := by
      rintro mark reserved other rfl
      exact absent c reserved other member
    simp [away '\t' (by decide) (by decide), away '\r' (by decide) (by decide),
      away '\n' (by decide) (by decide)]
  have start : (joinPath segments).dropWhile (fun c => c.toNat ≤ 32) = joinPath segments := by
    cases segments with
    | nil => rfl
    | cons segment segments => rfl
  have scheme : splitScheme (joinPath segments) = ([], joinPath segments) := by
    rw [splitScheme, cut_eq_none.mpr (absent ':' (by decide) (by decide))]
  have netloc : splitNetloc (joinPath segments) = ([], joinPath segments) := by
    cases segments with
    | nil => rfl
    | cons segment segments =>
        have first := plain segment List.mem_cons_self
        cases segment with
        | nil => exact absurd rfl first.1
        | cons c segment =>
            have other : c ≠ '/' := by
              rintro rfl
              exact first.absent (by decide) List.mem_cons_self
            simp only [joinPath, List.flatMap_cons, List.cons_append, splitNetloc]
            split
            · rename_i same
              simp only [List.cons.injEq, true_and] at same
              exact absurd same.1 other
            · rfl
  simp only [urlsplit, String.toList_ofList, start, kept, scheme, netloc,
    splitAt_absent (absent '#' (by decide) (by decide)), splitAt_absent (absent '?' (by decide) (by decide))]

/-! ## Query strings -/

/-- A plus is a blank; `percent` decodes the escapes, where there is one. -/
def unquotePlus (percent : List Char → List Char) (text : List Char) : String :=
  let text := text.map fun c => if c = '+' then ' ' else c
  String.ofList (if '%' ∈ text then percent text else text)

/-- `parse_qsl(query, keep_blank_values=True)`. -/
def parseQsl (percent : List Char → List Char) (query : List Char) : List (String × String) :=
  ((query.splitOn '&').filter fun item => item ≠ []).map fun item =>
    (unquotePlus percent (splitAt '=' item).1, unquotePlus percent (splitAt '=' item).2)

theorem unquotePlus_plain (percent : List Char → List Char) {text : List Char}
    (plain : ∀ c ∈ text, c ∉ ['+', '%', '&']) : unquotePlus percent text = String.ofList text := by
  have same : (text.map fun c => if c = '+' then ' ' else c) = text := by
    refine (List.map_congr_left (g := id) fun c member => ?_).trans (List.map_id text)
    have other : c ≠ '+' := by
      rintro rfl
      exact plain _ member (by decide)
    exact if_neg other
  have unescaped : '%' ∉ text := fun member => plain _ member (by decide)
  rw [unquotePlus, same]
  exact congrArg String.ofList (if_neg unescaped)

theorem parseQsl_single (percent : List Char → List Char) {name value : List Char} (bare : '=' ∉ name)
    (plain : ∀ c ∈ name ++ value, c ∉ ['+', '%', '&']) :
    parseQsl percent (name ++ '=' :: value) = [(String.ofList name, String.ofList value)] := by
  have whole : '&' ∉ name ++ '=' :: value := by
    intro member
    have inside : '&' ∈ name ++ value := by simpa using member
    exact plain _ inside (by decide)
  have halves : splitAt '=' (name ++ '=' :: value) = (name, value) := by
    rw [splitAt, cut_append bare]
    rfl
  have shown : name ++ '=' :: value ≠ [] := by simp
  rw [parseQsl, List.splitOn_eq_singleton whole]
  simp only [List.filter_cons, List.filter_nil, shown, ne_eq, not_false_eq_true, decide_true, if_true,
    List.map_cons, List.map_nil, halves]
  rw [unquotePlus_plain percent fun c member => plain c (List.mem_append_left _ member),
    unquotePlus_plain percent fun c member => plain c (List.mem_append_right _ member)]

theorem parseQsl_cons (percent : List Char → List Char) {name value : List Char} (bare : '=' ∉ name)
    (plain : ∀ c ∈ name ++ value, c ∉ ['+', '%', '&']) (rest : List Char) :
    parseQsl percent (name ++ '=' :: value ++ '&' :: rest) =
      (String.ofList name, String.ofList value) :: parseQsl percent rest := by
  have whole : '&' ∉ name ++ '=' :: value := by
    intro member
    have inside : '&' ∈ name ++ value := by simpa using member
    exact plain _ inside (by decide)
  have first := parseQsl_single percent bare plain
  rw [parseQsl, List.splitOn_eq_singleton whole] at first
  rw [parseQsl, List.splitOn_append_cons_self_of_not_mem whole, ← List.singleton_append,
    List.filter_append, List.map_append, first]
  rfl

end Fleet.Lib.Urllib
