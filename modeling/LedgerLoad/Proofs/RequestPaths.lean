import LedgerLoad.Proofs.PercentRoundTrip
import LedgerLoad.Proofs.TextParts
import LedgerLoad.Target.Rest

/-!
Where the balance of an account is asked for.

The path of a base URL stays in front, without an empty segment at its end, and the account becomes a segment of its own that
is decoded to it. Two kinds of accounts do not come through: a dot or two are no segment, and tabs and line ends are
dropped wherever they are. Each of these shares its URL with another account, and no two of the rest do.
-/

set_option autoImplicit false

namespace LedgerLoad

open Text (splitOn)

variable {ε α β : Type} {P : α → Prop}

/-! ### Results of computations that can fail -/

def Yields (P : α → Prop) (x : Except ε α) : Prop := ∀ a, x = .ok a → P a

theorem yields_pure {a : α} (h : P a) : Yields P (pure a : Except ε α) := by
  rintro _ ⟨⟩
  exact h

theorem yields_bind {x : Except ε β} {f : β → Except ε α} (h : ∀ b, Yields P (f b)) : Yields P (x >>= f) := by
  intro a ha
  cases x with
  | error e => cases ha
  | ok b => exact h b a ha

theorem yields_ite {c : Prop} [Decidable c] {x y : Except ε α} (hx : Yields P x) (hy : Yields P y) :
    Yields P (if c then x else y) := by
  split
  · exact hx
  · exact hy

namespace Url

variable {scheme : String} {u : Url} {s t segment : List Char} {path items : List (List Char)} {special file : Bool}
  {n : Nat}

/-! ### Bases -/

/-- A URL from its authority on keeps the scheme that it is read with; every step before the last can only fail. -/
theorem scheme_parseAuthority (scheme : String) (s : List Char) :
    Yields (fun u => u.scheme = scheme) (parseAuthority scheme s) := by
  unfold parseAuthority
  extract_lets special
  split
  rename_i authority rest parts
  extract_lets afterUser
  have fromUser : ∀ r, Yields (fun u => u.scheme = scheme) (afterUser r) := by
    rintro ⟨user, place⟩
    dsimp -zeta only [afterUser]
    extract_lets afterHost atHost
    have fromHost : ∀ host, Yields (fun u => u.scheme = scheme) (afterHost host) := by
      intro host
      dsimp -zeta only [afterHost]
      extract_lets noHost atPort
      have fromPort : ∀ r, Yields (fun u => u.scheme = scheme) (atPort r) := fun _ =>
        yields_bind fun _ => yields_ite (yields_bind fun _ => yields_pure rfl) (yields_pure rfl)
      exact yields_ite (yields_bind fromPort) (fromPort ())
    have fromGuarded : ∀ r, Yields (fun u => u.scheme = scheme) (atHost r) := fun _ =>
      yields_ite (yields_bind fromHost) (yields_bind fromHost)
    exact yields_ite (yields_bind fromGuarded) (fromGuarded ())
  split
  · exact yields_bind fromUser
  · exact yields_ite (yields_bind fun _ => yields_bind fromUser) (yields_bind fromUser)

theorem scheme_parsePlain (scheme : String) (s : List Char) :
    Yields (fun u => u.scheme = scheme) (parsePlain scheme s) := by
  unfold parsePlain
  split
  · exact scheme_parseAuthority scheme _
  · exact yields_pure rfl

/-- An empty segment stands in front of no other. -/
def Rooted (path : List (List Char)) : Prop := path = [[]] ∨ ∃ first rest, path = first :: rest ∧ first ≠ []

theorem rooted_dropLeading (path : List (List Char)) : Rooted (dropLeading path) := by
  unfold dropLeading
  split
  · exact .inl rfl
  · rename_i rest none
    cases kept : path.dropWhile List.isEmpty with
    | nil => exact absurd kept none
    | cons first rest =>
      have stopped := List.head?_dropWhile_not List.isEmpty path
      rw [kept] at stopped
      refine .inr ⟨first, rest, rfl, ?_⟩
      rintro rfl
      simp at stopped

theorem rooted_segmentsOf (special : Bool) (s : List Char) : Rooted (segmentsOf special true s) :=
  rooted_dropLeading _

theorem rooted_pathAfterHost (s : List Char) : Rooted (pathAfterHost true true s) := by
  unfold pathAfterHost
  split
  · exact .inl rfl
  · split <;> exact rooted_segmentsOf true _

theorem rooted_parseFile (s : List Char) :
    Yields (fun u => ∃ path, u.path = .segments path ∧ Rooted path) (parseFile s) := by
  unfold parseFile
  split
  extract_lets made
  split
  · refine yields_ite ?_ (yields_pure ⟨_, rfl, rooted_pathAfterHost _⟩)
    dsimp only
    exact yields_ite (yields_pure ⟨_, rfl, rooted_segmentsOf true _⟩)
      (yields_bind fun _ => yields_pure ⟨_, rfl, rooted_pathAfterHost _⟩)
  · exact yields_pure ⟨_, rfl, rooted_pathAfterHost _⟩

theorem rooted_of_parse {text : String} (h : parse text = .ok u) (file : u.scheme = "file") :
    ∃ path, u.path = .segments path ∧ Rooted path := by
  unfold parse at h
  split at h
  · cases h
  · split at h
    · exact rooted_parseFile _ u h
    · rename_i other
      split at h
      · exact absurd ((scheme_parseAuthority _ _ u h).symm.trans file) other
      · exact absurd ((scheme_parsePlain _ _ u h).symm.trans file) other

/-! ### Segments -/

def kept (segment : List Char) : List Char := segment.filter (!isDropped ·)

def segmentEncoding (special : Bool) : Char → Bool :=
  if special then Text.Percent.specialSegmentSet else Text.Percent.segmentSet

def encoded (special : Bool) (segment : List Char) : List Char :=
  Text.Percent.encode (segmentEncoding special) (kept segment)

theorem segmentEncoding_percent (special : Bool) : segmentEncoding special '%' = true := by
  cases special <;> decide

theorem mark_not_mem_encoded {mark : Char} (h : mark = '/' ∨ mark = '?' ∨ mark = '#') (special : Bool)
    (segment : List Char) : mark ∉ encoded special segment := by
  have digits : ∀ m < 16, mark ≠ (Nat.digitChar m).toUpper := by rcases h with rfl | rfl | rfl <;> decide
  apply Text.Percent.not_mem_encode ?_ ?_ (fun n => digits (n % 16) (Nat.mod_lt _ (by decide)))
  · rcases h with rfl | rfl | rfl <;> cases special <;> decide
  · rcases h with rfl | rfl | rfl <;> decide

theorem decode?_encoded (special : Bool) (segment : List Char) :
    Text.Utf8.decode? (Text.Percent.decode (encoded special segment)) = some (kept segment) :=
  Text.Percent.decode?_decode_encode (segmentEncoding_percent special) _

theorem decode_of_dotted? (h : dotted? s = some n) : Text.Percent.decode s = List.replicate n 46 := by
  fun_induction dotted? s generalizing n with
  | case1 =>
    cases h
    rfl
  | case2 r ih =>
    obtain ⟨m, hm, rfl⟩ := Option.map_eq_some_iff.1 h
    rw [Text.Percent.decode_cons (by decide), ih hm]
    rfl
  | case3 r ih =>
    obtain ⟨m, hm, rfl⟩ := Option.map_eq_some_iff.1 h
    rw [Text.Percent.decode, ih hm]
    rfl
  | case4 r ih =>
    obtain ⟨m, hm, rfl⟩ := Option.map_eq_some_iff.1 h
    rw [Text.Percent.decode, ih hm]
    rfl
  | case5 => cases h

theorem utf8_replicate_dot (n : Nat) : Text.Utf8.encode (List.replicate n '.') = List.replicate n 46 := by
  induction n with
  | zero => rfl
  | succ n ih => exact congrArg (46 :: ·) ih

/-- An encoded segment reads as dots only if it is made of dots: the percent sign of a dot in hexadecimal is encoded. -/
theorem kept_of_dotted? (h : dotted? (encoded special segment) = some n) : kept segment = List.replicate n '.' := by
  refine Text.Utf8.encode_injective ?_
  rw [utf8_replicate_dot, ← decode_of_dotted? h, encoded, Text.Percent.decode_encode (segmentEncoding_percent special)]

theorem dotted?_of_kept (h : kept segment = List.replicate n '.') : dotted? (encoded special segment) = some n := by
  have itself : segmentEncoding special '.' = false := by cases special <;> decide
  rw [encoded, h]
  clear h
  induction n with
  | zero => rfl
  | succ n ih =>
    rw [List.replicate_succ, Text.Percent.encode_cons, itself, if_neg (by decide), List.singleton_append, dotted?, ih]
    rfl

theorem dots_of_encoded {γ : Type} (one two other : γ) :
    (match dotted? (encoded special segment) with
      | some 1 => one
      | some 2 => two
      | _ => other) =
      if kept segment = ['.'] then one else if kept segment = ['.', '.'] then two else other := by
  split
  · rename_i h
    have dot : kept segment = ['.'] := kept_of_dotted? h
    rw [if_pos dot]
  · rename_i h
    have dots : kept segment = ['.', '.'] := kept_of_dotted? h
    rw [if_neg (by rw [dots]; decide), if_pos dots]
  · rename_i notOne notTwo
    have noDot : kept segment ≠ ['.'] := fun h => notOne (dotted?_of_kept h)
    have noDots : kept segment ≠ ['.', '.'] := fun h => notTwo (dotted?_of_kept h)
    rw [if_neg noDot, if_neg noDots]

/-- The path with one more segment, before empty segments at the front of a file are dropped. -/
def appended (special file : Bool) (path : List (List Char)) (segment : List Char) : List (List Char) :=
  if kept segment = ['.'] then path ++ [[]]
  else if kept segment = ['.', '.'] then shorten file path ++ [[]]
  else path ++ [encoded special segment]

theorem pushSegment_eq (h : ¬ (segment = ['.'] ∨ segment = ['.', '.'])) :
    pushSegment special file path segment =
      let next := appended special file (if path = [[]] then [] else path) segment
      if file then dropLeading next else next := by
  rw [pushSegment, if_neg h]
  exact congrArg (fun next => if file then dropLeading next else next) (dots_of_encoded ..)

/-! ### Paths -/

/-- A path whose segments all stay in place when more are appended. -/
structure Steady (file : Bool) (path : List (List Char)) : Prop where
  nonempty : path ≠ []
  notRoot : path ≠ [[]]
  rooted : file = true → ∀ first ∈ path.head?, first ≠ []

theorem Steady.append_one (h : Steady file path) (segment : List Char) : Steady file (path ++ [segment]) := by
  obtain ⟨first, rest, rfl⟩ := List.exists_cons_of_ne_nil h.nonempty
  exact ⟨by simp, by simp, h.rooted⟩

theorem Steady.unchanged (h : Steady file path) : (if file then dropLeading path else path) = path := by
  obtain ⟨first, rest, rfl⟩ := List.exists_cons_of_ne_nil h.nonempty
  split
  · rename_i isFile
    have solid : first.isEmpty = false := by simpa using h.rooted isFile first rfl
    rw [dropLeading, List.dropWhile_cons_of_neg (by simp [solid])]
  · rfl

theorem Steady.pushSegment (h : Steady file path) (shortened : Steady file (shorten file path))
    (hs : ¬ (segment = ['.'] ∨ segment = ['.', '.'])) :
    pushSegment special file path segment = appended special file path segment := by
  rw [pushSegment_eq hs, if_neg h.notRoot]
  have next : Steady file (appended special file path segment) := by
    unfold appended
    split
    · exact h.append_one []
    · split
      · exact shortened.append_one []
      · exact h.append_one _
  exact next.unchanged

theorem appended_word (word : '.' ∉ segment) :
    appended special file path segment = path ++ [encoded special segment] := by
  have letters : ∀ n, kept segment ≠ List.replicate (n + 1) '.' := by
    intro n h
    have dot : '.' ∈ kept segment := by
      rw [h]
      exact List.mem_cons_self
    exact word (List.mem_of_mem_filter dot)
  have noDot : kept segment ≠ ['.'] := letters 0
  have noDots : kept segment ≠ ['.', '.'] := letters 1
  rw [appended, if_neg noDot, if_neg noDots]

theorem pushSegment_word (word : '.' ∉ segment)
    (next : Steady file ((if path = [[]] then [] else path) ++ [encoded special segment])) :
    pushSegment special file path segment = (if path = [[]] then [] else path) ++ [encoded special segment] := by
  have noDots : ¬ (segment = ['.'] ∨ segment = ['.', '.']) := by
    rintro (rfl | rfl) <;> exact word List.mem_cons_self
  rw [pushSegment_eq noDots, appended_word word]
  exact next.unchanged

theorem Steady.pushSegment_word (h : Steady file path) (word : '.' ∉ segment) :
    Url.pushSegment special file path segment = path ++ [encoded special segment] := by
  have same : (if path = [[]] then [] else path) = path := if_neg h.notRoot
  rw [Url.pushSegment_word word (by rw [same]; exact h.append_one _), same]

/-- What stays of the path of a base: all but an empty segment at its end. Of slashes alone, one or two, nothing does. -/
def stem (path : List (List Char)) : List (List Char) := if popIfEmpty path = [[]] then [] else popIfEmpty path

theorem head?_stem (h : Rooted path) : ∀ first ∈ (stem path).head?, first ≠ [] := by
  obtain rfl | ⟨first, rest, rfl, solid⟩ := h
  · decide
  · have kept : (popIfEmpty (first :: rest)).head? = some first := by
      unfold popIfEmpty
      split
      · rename_i long
        cases rest with
        | nil => simp at long
        | cons second rest => rfl
      · rfl
    intro other hother
    unfold stem at hother
    split at hother
    · cases hother
    · rw [kept] at hother
      cases hother
      exact solid

theorem steady_stem_append (h : file = true → Rooted path) (segment : List Char) (nonempty : segment ≠ []) :
    Steady file (stem path ++ [segment]) := by
  refine ⟨by simp, fun only => ?_, fun isFile first hfirst => ?_⟩
  · cases parts : stem path with
    | nil => simp [parts, nonempty] at only
    | cons front rest => simp [parts] at only
  · cases parts : stem path with
    | nil =>
      rw [parts] at hfirst
      cases hfirst
      exact nonempty
    | cons front rest =>
      rw [parts] at hfirst
      cases hfirst
      exact head?_stem (h isFile) first (by rw [parts]; rfl)

theorem shorten_append_one (several : path ≠ []) (segment : List Char) : shorten file (path ++ [segment]) = path := by
  obtain ⟨first, rest, rfl⟩ := List.exists_cons_of_ne_nil several
  unfold shorten
  split
  · rename_i only single
    simp at single
  · exact List.dropLast_concat

/-! ### Accounts -/

def api : List Char := "api".toList

def v1 : List Char := "v1".toList

def accounts : List Char := "accounts".toList

def balance : List Char := "balance".toList

def accountSegments (special : Bool) (account : List Char) : List (List Char) :=
  if account = ['.'] ∨ account = ['.', '.'] then [api, v1, accounts, balance]
  else if kept account = ['.'] then [api, v1, accounts, [], balance]
  else if kept account = ['.', '.'] then [api, v1, [], balance]
  else [api, v1, accounts, encoded special account, balance]

/-- The account is one segment that is decoded to it. -/
def Survives (account : List Char) : Prop :=
  '\t' ∉ account ∧ '\n' ∉ account ∧ '\r' ∉ account ∧ account ≠ ['.'] ∧ account ≠ ['.', '.']

theorem push_account (special : Bool) (h : file = true → Rooted path) (account : List Char) :
    [api, v1, accounts, account, balance].foldl (pushSegment special file) (popIfEmpty path) =
      stem path ++ accountSegments special account := by
  have words : ∀ word ∈ [api, v1, accounts, balance], encoded special word = word ∧ '.' ∉ word := by
    cases special <;> decide
  obtain ⟨apiSame, apiWord⟩ := words api (by decide)
  obtain ⟨v1Same, v1Word⟩ := words v1 (by decide)
  obtain ⟨accountsSame, accountsWord⟩ := words accounts (by decide)
  obtain ⟨balanceSame, balanceWord⟩ := words balance (by decide)
  have start : Steady file (stem path ++ [api]) := steady_stem_append h api (by decide)
  have version := start.append_one v1
  have place := version.append_one accounts
  have first : pushSegment special file (popIfEmpty path) api = stem path ++ [api] := by
    have pushed : pushSegment special file (popIfEmpty path) api = stem path ++ [encoded special api] :=
      pushSegment_word apiWord (by rw [apiSame]; exact start)
    rwa [apiSame] at pushed
  have shortened : shorten file (stem path ++ [api] ++ [v1] ++ [accounts]) = stem path ++ [api] ++ [v1] := by
    exact shorten_append_one version.nonempty accounts
  have last : ∀ {path}, Steady file path → pushSegment special file path balance = path ++ [balance] := by
    intro path steady
    rw [steady.pushSegment_word balanceWord, balanceSame]
  simp only [List.foldl_cons, List.foldl_nil, first, start.pushSegment_word v1Word, version.pushSegment_word accountsWord, v1Same, accountsSame]
  unfold accountSegments
  split
  · rename_i dots
    have skipped : pushSegment special file (stem path ++ [api] ++ [v1] ++ [accounts]) account =
        stem path ++ [api] ++ [v1] ++ [accounts] := if_pos dots
    rw [skipped, last place]
    simp
  · rename_i noDots
    rw [place.pushSegment (by rw [shortened]; exact version) noDots, appended, shortened]
    split
    · rw [last (place.append_one [])]
      simp
    · split
      · rw [last (version.append_one [])]
        simp
      · rw [last (place.append_one _)]
        simp

theorem kept_eq_self (h : Survives segment) : kept segment = segment := by
  obtain ⟨tab, lf, cr, _, _⟩ := h
  refine List.filter_eq_self.2 fun c hc => ?_
  have other : c ≠ '\t' ∧ c ≠ '\n' ∧ c ≠ '\r' := by
    refine ⟨?_, ?_, ?_⟩ <;> rintro rfl
    · exact tab hc
    · exact lf hc
    · exact cr hc
  simp [isDropped, other]

theorem survives_of_kept (h : kept segment = segment) (dot : segment ≠ ['.']) (dots : segment ≠ ['.', '.']) :
    Survives segment := by
  have whole := List.filter_eq_self.1 h
  refine ⟨fun hc => ?_, fun hc => ?_, fun hc => ?_, dot, dots⟩ <;> simpa [isDropped] using whole _ hc

theorem accountSegments_of_survives (h : Survives segment) :
    accountSegments special segment = [api, v1, accounts, encoded special segment, balance] := by
  obtain ⟨_, _, _, dot, dots⟩ := id h
  rw [accountSegments, kept_eq_self h, if_neg (not_or.2 ⟨dot, dots⟩), if_neg dot, if_neg dots]

theorem accountSegments_decoded_iff (special : Bool) (nonempty : segment ≠ []) :
    (∃ x, accountSegments special segment = [api, v1, accounts, x, balance] ∧
      Text.Utf8.decode? (Text.Percent.decode x) = some segment) ↔ Survives segment := by
  constructor
  · rintro ⟨x, parts, decoded⟩
    unfold accountSegments at parts
    split at parts
    · simp at parts
    · rename_i noDots
      split at parts
      · obtain rfl : [] = x := by simpa using parts
        have nothing : Text.Utf8.decode? (Text.Percent.decode []) = some [] := Text.Utf8.decode?_encode []
        rw [nothing] at decoded
        exact absurd (Option.some.inj decoded).symm nonempty
      · split at parts
        · simp at parts
        · obtain rfl : encoded special segment = x := by simpa using parts
          rw [decode?_encoded] at decoded
          exact survives_of_kept (Option.some.inj decoded) (fun h => noDots (.inl h)) fun h => noDots (.inr h)
  · intro h
    exact ⟨_, accountSegments_of_survives h, by rw [decode?_encoded, kept_eq_self h]⟩

theorem eq_of_accountSegments (hs : Survives s) (ht : Survives t)
    (h : accountSegments special s = accountSegments special t) : s = t := by
  rw [accountSegments_of_survives hs, accountSegments_of_survives ht] at h
  have same : encoded special s = encoded special t := by simpa using h
  have decoded := decode?_encoded special s
  rw [same, decode?_encoded, kept_eq_self hs, kept_eq_self ht] at decoded
  exact (Option.some.inj decoded).symm

/-- Every account shares its segments with one that does not survive: one dot with two, and any other account with the same
one and a tab at its end. -/
theorem exists_double (special : Bool) (segment : List Char) :
    ∃ other, other ≠ [] ∧ other ≠ segment ∧ ¬ Survives other ∧
      accountSegments special other = accountSegments special segment := by
  by_cases dot : segment = ['.']
  · exact ⟨['.', '.'], by decide, by rw [dot]; decide, fun h => h.2.2.2.2 rfl, by rw [dot]; rfl⟩
  by_cases dots : segment = ['.', '.']
  · exact ⟨['.'], by decide, by rw [dots]; decide, fun h => h.2.2.2.1 rfl, by rw [dots]; rfl⟩
  have tab : '\t' ∈ segment ++ ['\t'] := List.mem_append_right _ (List.mem_singleton_self _)
  have same : kept (segment ++ ['\t']) = kept segment := by
    rw [kept, List.filter_append]
    exact List.append_nil _
  refine ⟨segment ++ ['\t'], by simp, by simp, fun h => h.1 tab, ?_⟩
  have noDots : ¬ (segment ++ ['\t'] = ['.'] ∨ segment ++ ['\t'] = ['.', '.']) := by
    rintro (h | h) <;> simp [h] at tab
  rw [accountSegments, accountSegments, if_neg noDots, if_neg (not_or.2 ⟨dot, dots⟩), encoded, encoded, same]

/-! ### Texts -/

theorem splitOn_append {sep : Char → Bool} {first : List Char} {rest : List (List Char)} (hs : ∀ c ∈ s, sep c = false)
    (ht : splitOn sep t = first :: rest) : splitOn sep (s ++ t) = (s ++ first) :: rest := by
  induction s with
  | nil => exact ht
  | cons c s ih =>
    rw [List.cons_append, splitOn, ih fun d hd => hs d (List.mem_cons_of_mem c hd)]
    simp [hs c]

theorem splitOn_segmentsText (h : ∀ item ∈ items, '/' ∉ item) : splitOn (· == '/') (segmentsText items) = [] :: items := by
  induction items with
  | nil => rfl
  | cons item items ih =>
    have plain : ∀ c ∈ item, (c == '/') = false := by
      intro c hc
      have other : c ≠ '/' := by
        rintro rfl
        exact h item List.mem_cons_self hc
      simpa using other
    have rest := splitOn_append plain (ih fun i hi => h i (List.mem_cons_of_mem _ hi))
    rw [List.append_nil] at rest
    change splitOn (· == '/') ([] ++ '/' :: (item ++ segmentsText items)) = _
    rw [Text.splitOn_append_cons (by simp) (by decide), rest]

theorem mark_not_mem_accountSegments {mark : Char} (h : mark = '/' ∨ mark = '?' ∨ mark = '#') (special : Bool)
    (account : List Char) : ∀ item ∈ accountSegments special account, mark ∉ item := by
  have words : mark ∉ api ∧ mark ∉ v1 ∧ mark ∉ accounts ∧ mark ∉ balance := by rcases h with rfl | rfl | rfl <;> decide
  have free := mark_not_mem_encoded h special account
  intro item hitem
  unfold accountSegments at hitem
  split_ifs at hitem <;> simp only [List.mem_cons, List.not_mem_nil, or_false] at hitem <;> grind

theorem accountSegments_cons (special : Bool) (account : List Char) :
    ∃ rest, accountSegments special account = api :: rest := by
  unfold accountSegments
  split_ifs <;> exact ⟨_, rfl⟩

theorem guardText_account (path : List (List Char)) (special : Bool) (account : List Char) :
    guardText (.segments (path ++ accountSegments special account)) =
      if path.head? = some [] then ['/', '.'] else [] := by
  obtain ⟨rest, parts⟩ := accountSegments_cons special account
  rw [parts]
  cases path with
  | nil => rfl
  | cons first path =>
    cases path <;> cases first <;> rfl

def withAccount (u : Url) (path : List (List Char)) (account : List Char) : Url :=
  { u with path := .segments (path ++ accountSegments (isSpecial u.scheme) account) }

theorem withAccount_eq_iff : u.withAccount path s = { u with path := .segments (path ++ items) } ↔
    accountSegments (isSpecial u.scheme) s = items := by
  constructor
  · intro h
    have paths : Path.segments _ = Path.segments _ := congrArg Url.path h
    exact List.append_cancel_left (Path.segments.inj paths)
  · rintro rfl
    rfl

def textBefore (u : Url) (path : List (List Char)) : List Char :=
  u.scheme.toList ++ ':' :: (match u.host with
    | some h => '/' :: '/' :: u.authorityText h
    | none => if path.head? = some [] then ['/', '.'] else []) ++ segmentsText path

theorem text_withAccount (u : Url) (path : List (List Char)) (account : List Char) :
    (u.withAccount path account).text = String.ofList (u.textBefore path ++
      (segmentsText (accountSegments (isSpecial u.scheme) account) ++ (u.queryText ++ u.fragmentText))) := by
  have below : (u.withAccount path account).path.text =
      segmentsText path ++ segmentsText (accountSegments (isSpecial u.scheme) account) := List.flatMap_append
  have guard := guardText_account path (isSpecial u.scheme) account
  have before : (u.withAccount path account).upToPath =
      u.textBefore path ++ segmentsText (accountSegments (isSpecial u.scheme) account) := by
    rw [upToPath, below, textBefore, List.append_assoc _ (segmentsText path), ← guard]
    rfl
  rw [text, before, List.append_assoc, List.append_assoc]
  rfl

theorem text_withAccount_iff (u : Url) (path : List (List Char)) (s t : List Char) :
    (u.withAccount path s).text = (u.withAccount path t).text ↔
      accountSegments (isSpecial u.scheme) s = accountSegments (isSpecial u.scheme) t := by
  constructor
  · intro h
    rw [text_withAccount, text_withAccount] at h
    have parts := List.append_cancel_right (List.append_cancel_left (String.ofList_injective h))
    have fields := congrArg (splitOn (· == '/')) parts
    have slash : ∀ account, ∀ item ∈ accountSegments (isSpecial u.scheme) account, '/' ∉ item :=
      mark_not_mem_accountSegments (.inl rfl) _
    rw [splitOn_segmentsText (slash s), splitOn_segmentsText (slash t)] at fields
    exact (List.cons.inj fields).2
  · intro h
    rw [text_withAccount, text_withAccount, h]

end Url

namespace RestTarget

open Url

variable {base : String} {t : RestTarget}

theorem segments_of_ofText (h : ofText base = .ok t) :
    ∃ path, t.base.path = .segments path ∧ (t.base.scheme = "file" → Rooted path) := by
  unfold ofText at h
  split at h
  · cases h
  · rename_i u parsed
    split at h
    · rename_i usable
      cases h
      unfold canBeBase at usable
      split at usable
      · rename_i path hpath
        refine ⟨path, hpath, fun file => ?_⟩
        obtain ⟨path', hpath', rooted⟩ := rooted_of_parse parsed file
        rw [hpath] at hpath'
        cases hpath'
        exact rooted
      · cases usable
    · cases h

theorem balanceRequest_url {path : List (List Char)} (hpath : t.base.path = .segments path)
    (rooted : t.base.scheme = "file" → Rooted path) (account : String) :
    (t.balanceRequest account).url = t.base.withAccount (stem path) account.toList := by
  have fileRooted : decide (t.base.scheme = "file") = true → Rooted path := fun file => rooted (of_decide_eq_true file)
  have pushed := push_account (isSpecial t.base.scheme) fileRooted account.toList
  rw [withAccount, ← pushed]
  unfold balanceRequest endpoint extend
  rw [hpath]
  rfl

/-- Below every base that a target accepts, the request goes to the path of the base and then the segments of the account.
These are five, and the fourth is decoded to the account, exactly if the account is neither a dot nor two and has no tabs and
line ends. No two such accounts share a URL, and every account shares its URL with one that is not of them. -/
theorem account_survives_iff (h : ofText base = .ok t) :
    ∃ path, t.base.path = .segments path ∧
      (∀ account, (t.balanceRequest account).url = t.base.withAccount (stem path) account.toList) ∧
      (∀ account, account ≠ "" →
        ((∃ x, (t.balanceRequest account).url =
            { t.base with path := .segments (stem path ++ [api, v1, accounts, x, balance]) } ∧
          Text.Utf8.decode? (Text.Percent.decode x) = some account.toList) ↔ Survives account.toList)) ∧
      (∀ a b, Survives a.toList → Survives b.toList →
        (t.balanceRequest a).url.text = (t.balanceRequest b).url.text → a = b) ∧
      ∀ a, ∃ b, b ≠ "" ∧ b ≠ a ∧ ¬ Survives b.toList ∧
        (t.balanceRequest b).url.text = (t.balanceRequest a).url.text := by
  obtain ⟨path, hpath, rooted⟩ := segments_of_ofText h
  have url := balanceRequest_url hpath rooted
  refine ⟨path, hpath, url, fun account nonempty => ?_, fun a b ha hb same => ?_, fun a => ?_⟩
  · have letters : account.toList ≠ [] := fun none => nonempty (String.toList_eq_nil_iff.1 none)
    rw [← accountSegments_decoded_iff (isSpecial t.base.scheme) letters, url]
    exact exists_congr fun x => and_congr_left' withAccount_eq_iff
  · rw [url, url, text_withAccount_iff] at same
    exact String.toList_injective (eq_of_accountSegments ha hb same)
  · obtain ⟨other, nonempty, different, lost, same⟩ := exists_double (isSpecial t.base.scheme) a.toList
    refine ⟨String.ofList other, fun none => nonempty ?_, fun itself => different ?_, ?_, ?_⟩
    · rw [← String.toList_ofList (l := other), none]
      rfl
    · rw [← itself, String.toList_ofList]
    · rwa [String.toList_ofList]
    · rw [url, url, text_withAccount_iff, String.toList_ofList]
      exact same

def ledger : RestTarget :=
  ⟨{ scheme := "http", host := some (.name "localhost".toList), port := some 8080, path := .segments ["ledger".toList, []] }⟩

theorem accounts_below_ledger : ofText "http://localhost:8080/ledger/" = .ok ledger ∧
    (∃ x, (ledger.balanceRequest "a%2e/é").url =
        { ledger.base with path := .segments ["ledger".toList, api, v1, accounts, x, balance] } ∧
      Text.Utf8.decode? (Text.Percent.decode x) = some "a%2e/é".toList) ∧
    (¬ ∃ x, (ledger.balanceRequest "..").url =
        { ledger.base with path := .segments ["ledger".toList, api, v1, accounts, x, balance] } ∧
      Text.Utf8.decode? (Text.Percent.decode x) = some "..".toList) ∧
    ∃ b, b ≠ "a\tb" ∧ (ledger.balanceRequest b).url.text = (ledger.balanceRequest "a\tb").url.text := by
  have accepted : ofText "http://localhost:8080/ledger/" = .ok ledger := by decide +kernel
  obtain ⟨path, hpath, _, survives, _, shared⟩ := account_survives_iff accepted
  obtain rfl : ["ledger".toList, []] = path := Path.segments.inj hpath
  have stays : Survives "a%2e/é".toList := by
    unfold Survives
    decide +kernel
  have lost : ¬ Survives "..".toList := fun h => h.2.2.2.2 rfl
  obtain ⟨b, _, different, _, same⟩ := shared "a\tb"
  exact ⟨accepted, (survives _ (by decide)).2 stays, mt (survives _ (by decide)).1 lost, b, different, same⟩

/-- Where the accounts `..` and, with a tab in it, `ab` are looked for. -/
example : ["..", "a\tb"].map (fun account => (ledger.balanceRequest account).url.text) =
    ["http://localhost:8080/ledger/api/v1/accounts/balance",
      "http://localhost:8080/ledger/api/v1/accounts/ab/balance"] := by decide +kernel

end RestTarget

end LedgerLoad
