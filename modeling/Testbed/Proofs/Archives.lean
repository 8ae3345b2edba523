import Mathlib.Data.List.Infix
import Testbed.Proofs.Cuts
import Testbed.Proofs.OrderlyStart

/-!
# Archives of one file

A file is copied into a container as an archive.  `Path.Spells` is the grammar of paths: pieces
between slashes, each of which is a name, or stands for nothing.  `Archive.Stores` says what the
archive of a file holds: every directory above the file, outermost first, and then the file.

Paths with exactly two leading slashes have a root of their own and are refused; they are left out.
-/

namespace Testbed
namespace Archive

/-! ## How paths are written -/

namespace Path

/-- What stands between two slashes of a path: nothing, a point or a name. -/
inductive Piece : List Char → List String → Prop where
  | empty : Piece [] []
  | point : Piece ['.'] []
  | name {piece : List Char} (some : piece ≠ []) (named : piece ≠ ['.']) (whole : '/' ∉ piece) :
      Piece piece [String.ofList piece]

/-- A path spells the names of its pieces. -/
inductive Spells : List Char → List String → Prop where
  | last {piece : List Char} {names : List String} (h : Piece piece names) : Spells piece names
  | slash {piece rest : List Char} {names more : List String} (h : Piece piece names)
      (further : Spells rest more) : Spells (piece ++ '/' :: rest) (names ++ more)

variable {cs piece : List Char} {names : List String}

theorem Piece.whole (h : Piece piece names) : '/' ∉ piece := by
  cases h with
  | empty => simp
  | point => simp
  | name some named whole => exact whole

theorem exists_piece (whole : '/' ∉ piece) : ∃ names, Piece piece names := by
  by_cases none : piece = []
  · exact ⟨[], none ▸ .empty⟩
  · by_cases point : piece = ['.']
    · exact ⟨[], point ▸ .point⟩
    · exact ⟨_, .name none point whole⟩

/-- Every path spells some names. -/
theorem exists_spells (cs : List Char) : ∃ names, Spells cs names := by
  -- By induction on the length: the path is cut at its first slash.
  induction hn : cs.length using Nat.strong_induction_on generalizing cs with
  | _ n ih =>
    cases cut : Text.splitFirst? (· == '/') cs with
    | none =>
      have whole : '/' ∉ cs := fun h => by simpa using Text.splitFirst?_eq_none.1 cut _ h
      obtain ⟨names, h⟩ := exists_piece whole
      exact ⟨names, .last h⟩
    | some r =>
      obtain ⟨c, slash, rfl, before⟩ := Text.of_splitFirst? cut
      obtain rfl : c = '/' := by simpa using slash
      have whole : '/' ∉ r.1 := fun h => by simpa using before _ h
      obtain ⟨names, h⟩ := exists_piece whole
      obtain ⟨more, further⟩ := ih r.2.length (by simp [← hn]; omega) r.2 rfl
      exact ⟨names ++ more, .slash h further⟩

theorem Spells.whole (h : Spells cs names) : ∀ n ∈ names, '/' ∉ n.toList := by
  have piece {piece : List Char} {names : List String} (h : Piece piece names) :
      ∀ n ∈ names, '/' ∉ n.toList := by
    cases h with
    | empty => nofun
    | point => nofun
    | name some named whole => simpa using whole
  induction h with
  | last h => exact piece h
  | slash h further ih =>
    intro n hn
    rcases List.mem_append.1 hn with hn | hn
    · exact piece h n hn
    · exact ih n hn

/-! ## How paths are read -/

/-- Signs that are no slashes belong to the next piece. -/
theorem pieces_append {rest head : List Char} {tail : List (List Char)} (whole : '/' ∉ piece)
    (h : Text.pieces (· == '/') rest = head :: tail) :
    Text.pieces (· == '/') (piece ++ rest) = (piece ++ head) :: tail := by
  induction piece with
  | nil => exact h
  | cons c piece ih =>
    rcases not_or.1 (mt List.mem_cons.2 whole) with ⟨other, whole⟩
    simp [Text.pieces, Ne.symm other, ih whole]

theorem pieces_whole (whole : '/' ∉ piece) : Text.pieces (· == '/') piece = [piece] := by
  have alone : Text.pieces (· == '/') [] = [[]] := rfl
  have pieces := pieces_append whole alone
  rwa [List.append_nil] at pieces

theorem pieces_slash (whole : '/' ∉ piece) (rest : List Char) :
    Text.pieces (· == '/') (piece ++ '/' :: rest) = piece :: Text.pieces (· == '/') rest := by
  have cut : Text.pieces (· == '/') ('/' :: rest) = [] :: Text.pieces (· == '/') rest := rfl
  have pieces := pieces_append whole cut
  rwa [List.append_nil] at pieces

/-- The names among the pieces of a path. -/
def named (pieces : List (List Char)) : List String :=
  (pieces.map String.ofList).filter fun n => !n.isEmpty && n != "."

theorem Piece.named_eq (h : Piece piece names) : named [piece] = names := by
  cases h with
  | empty => decide
  | point => decide
  | name some named whole =>
    have holds : (String.ofList piece).isEmpty = false := by simpa using some
    have other : String.ofList piece ≠ "." := by
      intro he
      exact named (by simpa using congrArg String.toList he)
    simp [Path.named, holds, other]

/-- What a path spells is read from it. -/
theorem Spells.names_eq (h : Spells cs names) : named (Text.pieces (· == '/') cs) = names := by
  induction h with
  | last h =>
    rw [pieces_whole h.whole, h.named_eq]
  | slash h further ih =>
    rw [pieces_slash h.whole, ← h.named_eq, ← ih]
    simp only [named, List.map_cons, List.map_nil, ← List.filter_append, List.singleton_append]

/-- Nothing but what a path spells is read from it. -/
theorem spells_iff {more : List String} (h : Spells cs names) : Spells cs more ↔ more = names :=
  ⟨fun h' => h'.names_eq.symm.trans h.names_eq, fun same => same ▸ h⟩

/-- A path from the plain root to a file, free of null characters. -/
structure Leads (path : String) : Prop where
  printable : '\x00' ∉ path.toList
  absolute : path.toList.head? = some '/'
  /-- Two leading slashes are followed by a third one. -/
  plain : ∀ rest, path.toList = '/' :: '/' :: rest → rest.head? = some '/'
  /-- There is a name in it. -/
  named : ¬ Spells path.toList []

/-- Two leading slashes alone have a root of their own. -/
theorem Leads.root_eq {path : String} (h : Leads path) : (parse path).root = "/" := by
  obtain ⟨rest, leading⟩ := List.head?_eq_some_iff.1 h.absolute
  unfold parse
  simp only [leading]
  match rest, h.plain with
  | [], _ => rfl
  | c :: rest, plain =>
    by_cases slash : c = '/'
    · obtain ⟨further, rfl⟩ := List.head?_eq_some_iff.1 (plain rest (by rw [leading, slash]))
      simp [slash]
    · simp [slash]

theorem Leads.relative_eq {path : String} (h : Leads path) (spells : Spells path.toList names) :
    relative path = .ok names := by
  have read : (parse path).names = names := spells.names_eq
  unfold relative
  simp [h.root_eq, read]

end Path

/-! ## What an archive holds -/

/-- An archive stores a file under its names, with given content and owner. -/
structure Stores (names : List String) (data : List UInt8) (uid gid : Int)
    (archive : List Engine.Member) : Prop where
  /-- The file stands at the end. -/
  file : archive.getLast? = some ⟨"/".intercalate names, some data, 0o644, uid, gid⟩
  /-- Everything before the file is a directory. -/
  directory : ∀ d ∈ archive.dropLast, d = ⟨d.name, none, 0o755, uid, gid⟩
  /-- The directories are those above the file. -/
  above : ∀ name, (∃ d ∈ archive.dropLast, d.name = name) ↔
    ∃ start, start ≠ [] ∧ start <+: names ∧ start ≠ names ∧ name = "/".intercalate start
  /-- Nothing is stored twice. -/
  nodup : (archive.map Engine.Member.name).Nodup
  /-- Everything lies in all that stands before it. -/
  order : archive.Pairwise fun a b => ∃ more, b.name = a.name ++ "/" ++ more
  /-- What lies in a directory is preceded by it. -/
  parent : ∀ before m after, archive = before ++ m :: after → ∀ outer last,
    m.name = outer ++ "/" ++ last → '/' ∉ last.toList →
      ∃ d ∈ before, d.name = outer ∧ d.content = none

variable {names : List String} {data : List UInt8} {uid gid : Int} {k n : Nat}

theorem above_eq (names : List String) : above names =
    (List.range (names.length - 1)).map fun k => "/".intercalate (names.take (k + 1)) := by
  cases names with
  | nil => rfl
  | cons name names => simp [above, List.range_succ_eq_map]

/-- The members are named by the beginnings of the path, by their length. -/
theorem members_names (some : names ≠ []) :
    (members names data uid gid).map Engine.Member.name =
      (List.range names.length).map fun k => "/".intercalate (names.take (k + 1)) := by
  obtain ⟨n, length⟩ := Nat.exists_eq_succ_of_ne_zero (mt List.length_eq_zero_iff.1 some)
  have whole : names.take (n + 1) = names := List.take_of_length_le (by omega)
  simp [members, above_eq, fileName, some, length, List.range_succ, whole, Function.comp_def]

theorem members_getElem? (some : names ≠ []) {m : Engine.Member}
    (h : (members names data uid gid)[k]? = Option.some m) :
    k < names.length ∧ m.name = "/".intercalate (names.take (k + 1)) := by
  have found := congrArg (Option.map Engine.Member.name) h
  rw [← List.getElem?_map, members_names some, List.getElem?_map, Option.map_some,
    Option.map_eq_some_iff] at found
  obtain ⟨j, hj, named⟩ := found
  obtain ⟨inside, rfl⟩ := List.getElem?_eq_some_iff.1 hj
  simp only [List.length_range] at inside
  simp only [List.getElem_range] at named
  exact ⟨inside, named.symm⟩

/-- A longer beginning of a path lies in each shorter one. -/
theorem take_within (shorter : k < n) (inside : n < names.length) :
    ∃ more, "/".intercalate (names.take (n + 1)) =
      "/".intercalate (names.take (k + 1)) ++ "/" ++ more := by
  have split : names.take (n + 1) =
      names.take (k + 1) ++ (names.take (n + 1)).drop (k + 1) := by
    have start : (names.take (n + 1)).take (k + 1) = names.take (k + 1) := by
      rw [List.take_take, Nat.min_eq_left (by omega)]
    rw [← start, List.take_append_drop]
  refine ⟨"/".intercalate ((names.take (n + 1)).drop (k + 1)), ?_⟩
  rw [split, String.intercalate_append_of_ne_nil, ← split]
  · exact List.ne_nil_of_length_pos (by simp; omega)
  · exact List.ne_nil_of_length_pos (by simp; omega)

/-- A beginning of a path ends in its last name. -/
theorem take_next (inside : k + 1 < names.length) :
    "/".intercalate (names.take (k + 2)) =
      "/".intercalate (names.take (k + 1)) ++ "/" ++ names[k + 1] := by
  rw [List.take_succ_eq_append_getElem inside, String.intercalate_append_of_ne_nil _ (by simp),
    String.intercalate_singleton]
  exact List.ne_nil_of_length_pos (by simp; omega)

/-- The place of the last slash tells what stands before it. -/
theorem outer_eq {outer outer' last last' : String} (whole : '/' ∉ last.toList)
    (whole' : '/' ∉ last'.toList) (h : outer ++ "/" ++ last = outer' ++ "/" ++ last') :
    outer = outer' := by
  have cut (outer : String) {last : String} (whole : '/' ∉ last.toList) :
      Text.splitLast? (· == '/') (outer ++ "/" ++ last).toList =
        some (outer.toList, last.toList) := by
    have mark : "/".toList = ['/'] := rfl
    rw [String.toList_append, String.toList_append, mark, List.append_assoc, List.singleton_append]
    exact Text.splitLast?_append (by decide) fun x hx => beq_false_of_ne fun he => whole (he ▸ hx)
  have same := cut outer whole
  rw [h, cut outer' whole'] at same
  exact String.toList_inj.1 (congrArg Prod.fst (Option.some.inj same)).symm

/-- The directories are named by the proper beginnings of the path. -/
theorem mem_above_iff {name : String} : name ∈ above names ↔
    ∃ start, start ≠ [] ∧ start <+: names ∧ start ≠ names ∧ name = "/".intercalate start := by
  rw [above_eq]
  constructor
  · intro h
    obtain ⟨k, inside, rfl⟩ := List.mem_map.1 h
    rw [List.mem_range] at inside
    refine ⟨names.take (k + 1), ?_, List.take_prefix .., ?_, rfl⟩
    · exact List.ne_nil_of_length_pos (by simp; omega)
    · intro same
      have length := congrArg List.length same
      rw [List.length_take] at length
      omega
  · rintro ⟨start, holds, within, proper, rfl⟩
    have shorter : start.length < names.length :=
      lt_of_le_of_ne within.length_le fun h => proper (within.eq_of_length h)
    have first : 0 < start.length := List.length_pos_iff.2 holds
    refine List.mem_map.2 ⟨start.length - 1, List.mem_range.2 (by omega), ?_⟩
    rw [Nat.sub_add_cancel first, ← List.prefix_iff_eq_take.1 within]

theorem members_dropLast : (members names data uid gid).dropLast =
    (above names).map fun n => ⟨n, none, directoryMode, uid, gid⟩ := by
  rw [members, List.dropLast_concat]

/-- Everything lies in all that stands before it. -/
theorem members_pairwise (some : names ≠ []) : (members names data uid gid).Pairwise
    fun a b => ∃ more, b.name = a.name ++ "/" ++ more := by
  have named : ((members names data uid gid).map Engine.Member.name).Pairwise
      fun a b => ∃ more, b = a ++ "/" ++ more := by
    rw [members_names some, List.pairwise_map]
    refine List.pairwise_lt_range.imp_of_mem ?_
    intro k n _ hn shorter
    exact take_within shorter (List.mem_range.1 hn)
  exact List.pairwise_map.1 named

/-- What lies in a directory is preceded by it. -/
theorem members_outer (some : names ≠ []) (whole : ∀ n ∈ names, '/' ∉ n.toList)
    {before after : List Engine.Member} {m : Engine.Member}
    (split : members names data uid gid = before ++ m :: after) {outer last : String}
    (named : m.name = outer ++ "/" ++ last) (wholeLast : '/' ∉ last.toList) :
    ∃ d ∈ before, d.name = outer ∧ d.content = none := by
  have found : (members names data uid gid)[before.length]? = Option.some m := by
    rw [split, List.getElem?_append_right (Nat.le_refl _), Nat.sub_self]
    rfl
  obtain ⟨inside, read⟩ := members_getElem? some found
  cases place : before.length with
  | zero =>
    -- The outermost member has a name of the path, which holds no slash.
    rw [place, List.take_one, List.head?_eq_some_head some] at read
    refine absurd ?_ (whole _ (List.head_mem some))
    have mark : '/' ∈ (outer ++ "/" ++ last).toList := by simp
    rwa [← named, read, Option.toList_some, String.intercalate_singleton] at mark
  | succ k =>
    rw [place] at inside
    rw [place, take_next inside] at read
    have same := outer_eq wholeLast (whole _ (List.getElem_mem inside)) (named.symm.trans read)
    have early : k < before.length := by omega
    have earlier : (members names data uid gid)[k]? = Option.some before[k] := by
      rw [split, List.getElem?_append_left early, List.getElem?_eq_getElem early]
    have directory : before[k] ∈ (members names data uid gid).dropLast := by
      rw [split, List.dropLast_append_cons]
      exact List.mem_append_left _ (List.getElem_mem early)
    rw [members_dropLast] at directory
    obtain ⟨n, -, made⟩ := List.mem_map.1 directory
    refine ⟨before[k], List.getElem_mem early, ?_, ?_⟩
    · rw [(members_getElem? some earlier).2, same]
    · rw [← made]

/-- The archive of a file stores it, if no slash stands within a name. -/
theorem members_stores (some : names ≠ []) (whole : ∀ n ∈ names, '/' ∉ n.toList)
    (data : List UInt8) (uid gid : Int) :
    Stores names data uid gid (members names data uid gid) where
  file := by simp [members, fileName, fileMode, some]
  directory d hd := by
    rw [members_dropLast] at hd
    obtain ⟨n, -, rfl⟩ := List.mem_map.1 hd
    rfl
  above name := by
    rw [members_dropLast, ← mem_above_iff]
    simp
  nodup := by
    rw [List.Nodup, List.pairwise_map]
    refine (members_pairwise some).imp ?_
    rintro a b ⟨more, longer⟩ same
    have length := congrArg String.length (same.trans longer)
    simp only [String.length_append] at length
    have mark : "/".length = 1 := rfl
    omega
  order := members_pairwise some
  parent _ _ _ split _ _ named wholeLast := members_outer some whole split named wholeLast

/-- The directories above a file come first. -/
example : (members ["opt", "import", "realm.json"] [0x7B, 0x7D] 1000 0).map Engine.Member.name =
    ["opt", "opt/import", "opt/import/realm.json"] := by
  decide

end Archive

/-! ## What is sent into the container -/

/-- The archive that a call sends, and the container that it is for. -/
def Call.archive? : Call → Option (String × List Engine.Member)
  | .engine (.putArchive id archive) => some (id, archive)
  | _ => none

/-- A call of the client has failed, or the engine has rejected an archive. -/
def Exchange.Fails : Exchange → Prop
  | ⟨.openClient _, r⟩ => ∃ f, r = .error f
  | ⟨.engine (.putArchive ..), r⟩ => r ≠ .ok true
  | ⟨.engine _, r⟩ => ∃ f, r = .error f
  | _ => False

namespace Client

variable {id path : String} {names : List String} {data : List UInt8} {uid gid : Int}
  {es : List Exchange} {t' : Task (Except Fault Unit)} {w w' : World}

/-- The rule of a program that sends one archive, which stores a file; the note is all that has
been exchanged. -/
def sendsOnce (id : String) (names : List String) (data : List UInt8) (uid gid : Int) :
    Rule (List Exchange) where
  allows := fun es c => ∀ archive, c.archive? = some archive →
    (∀ e ∈ es, e.call.archive? = none) ∧ archive.1 = id ∧
      Archive.Stores names data uid gid archive.2
  note := fun es c r => es ++ [⟨c, r⟩]

theorem after_sendsOnce (before : List Exchange) :
    (sendsOnce id names data uid gid).after before es = before ++ es := by
  induction es generalizing before with
  | nil => simp [Rule.after]
  | cons e es ih => rw [Rule.after_cons, ih, sendsOnce, List.append_assoc, List.singleton_append]

/-- Copying raises an error if something has failed; else the archive has been sent. -/
def Copied (es : List Exchange) (r : Except Fault Unit) : Prop :=
  ((∃ f, r = .error f) ↔ ∃ e ∈ es, e.Fails) ∧
    (r = .ok () → ∃ e ∈ es, (e.call.archive?).isSome)

theorem Copied.of_fails {e : Exchange} {f : Fault} (fails : e.Fails) :
    Copied (es ++ [e]) (.error f) :=
  ⟨⟨fun _ => ⟨e, by simp, fails⟩, fun _ => ⟨f, rfl⟩⟩, nofun⟩

theorem Copied.of_sent (fine : ∀ e ∈ es, ¬ e.Fails) (sent : ∃ e ∈ es, (e.call.archive?).isSome) :
    Copied es (.ok ()) :=
  ⟨iff_of_false nofun fun ⟨e, he, fails⟩ => fine e he fails, fun _ => sent⟩

theorem putFile_follows (leads : Archive.Path.Leads path)
    (spells : Archive.Path.Spells path.toList names) :
    Task.Follows (sendsOnce id names data uid gid) Copied (putFile id path data uid gid).run [] := by
  have some : names ≠ [] := fun none => leads.named (none ▸ spells)
  have stores : Archive.Stores names data uid gid (Archive.members names data uid gid) :=
    Archive.members_stores some spells.whole data uid gid
  -- Four calls follow one another: the client is opened, the container found, the archive sent and
  -- the success logged. Each of the first three may fail, and the engine may reject the archive.
  simp only [putFile, leads.relative_eq spells]
  refine ⟨nofun, fun opened => ?_⟩
  rcases opened with f | ⟨⟩
  · exact .of_fails ⟨f, rfl⟩
  refine ⟨nofun, fun found => ?_⟩
  rcases found with f | found
  · exact .of_fails ⟨f, rfl⟩
  refine ⟨?_, fun accepted => ?_⟩
  · rintro archive ⟨⟩
    exact ⟨by simp [sendsOnce, Call.archive?], rfl, stores⟩
  rcases accepted with f | accepted
  · exact .of_fails nofun
  cases accepted with
  | false => exact .of_fails nofun
  | true =>
    refine ⟨nofun, fun _ => ?_⟩
    refine .of_sent ?_ ?_
    · intro e h
      simp only [sendsOnce, List.nil_append, List.mem_append, List.mem_singleton] at h
      rcases h with ((rfl | rfl) | rfl) | rfl
      · nofun
      · nofun
      · exact fun rejected => rejected rfl
      · nofun
    · simp [sendsOnce, Call.archive?]

/-- Among some calls there is at most one that sends an archive, which stores a file. -/
structure Sends (id : String) (names : List String) (data : List UInt8) (uid gid : Int)
    (calls : List Call) : Prop where
  stores : ∀ c ∈ calls, ∀ archive, c.archive? = some archive →
    archive.1 = id ∧ Archive.Stores names data uid gid archive.2
  once : calls.countP (fun c => (c.archive?).isSome) ≤ 1

theorem Sends.call {c : Call} (h : Sends id names data uid gid (es.map Exchange.call))
    (allowed : (sendsOnce id names data uid gid).allows es c) :
    Sends id names data uid gid (es.map Exchange.call ++ [c]) where
  stores := by
    refine List.forall_mem_append.2 ⟨h.stores, List.forall_mem_singleton.2 ?_⟩
    exact fun archive sends => (allowed archive sends).2
  once := by
    rw [List.countP_append, List.countP_singleton]
    cases sends : c.archive? with
    | none => simpa using h.once
    | some archive =>
      have none : (es.map Exchange.call).countP (fun c => (c.archive?).isSome) = 0 := by
        rw [List.countP_eq_zero]
        intro c' hc
        obtain ⟨e, he, rfl⟩ := List.mem_map.1 hc
        simp [(allowed archive sends).1 e he]
      simp [none]

/-- How far a program that copies a file into a container has come. -/
structure Copies (id : String) (names : List String) (data : List UInt8) (uid gid : Int)
    (es : List Exchange) (t' : Task (Except Fault Unit)) : Prop where
  /-- No more than one archive is sent; it goes to the container and stores the file. -/
  sends : Sends id names data uid gid (Task.issued es t')
  /-- Copying ends well only if one has been sent. -/
  sent : t' = .done (.ok ()) → ∃ e ∈ es, (e.call.archive?).isSome
  /-- An error is raised if and only if the archive is rejected or a call fails. -/
  raises : ∀ r, t' = .done r → ((∃ f, r = .error f) ↔ ∃ e ∈ es, e.Fails)

theorem copies_of_follows {t : Task (Except Fault Unit)}
    (follows : t.Follows (sendsOnce id names data uid gid) Copied [])
    (run : Task.Execution t w es t' w') : Copies id names data uid gid es t' := by
  have after : (sendsOnce id names data uid gid).after [] es = es := after_sendsOnce []
  have came := follows.execution run
  have kept : Sends id names data uid gid
      (((sendsOnce id names data uid gid).after [] es).map Exchange.call) := by
    have init : Sends id names data uid gid [] := ⟨by simp, by simp⟩
    refine follows.invariant (I := fun es => Sends id names data uid gid (es.map Exchange.call))
      run init ?_
    intro es c r allowed h
    have more := h.call allowed
    rwa [← List.map_singleton (f := Exchange.call) (a := ⟨c, r⟩), ← List.map_append] at more
  rw [after] at came kept
  cases t' with
  | done r =>
    refine ⟨?_, ?_, ?_⟩
    · rw [Task.issued_done]
      exact kept
    · rintro ⟨⟩
      exact came.2 rfl
    · rintro r' ⟨⟩
      exact came.1
  | call c next => exact ⟨kept.call came.1, nofun, nofun⟩

/-- A file is copied into a container as one archive, which holds the directories above the file
and then the file, whatever slashes and points its path has. -/
theorem file_is_copied_with_directories (leads : Archive.Path.Leads path) (id : String)
    (data : List UInt8) (uid gid : Int) :
    ∃ names, (∀ more, Archive.Path.Spells path.toList more ↔ more = names) ∧
      (∀ w, ∃ es r w', Task.Ends (putFile id path data uid gid).run w es r w' ∧
        Copies id names data uid gid es (.done r)) ∧
      ∀ w es t' w', Task.Execution (putFile id path data uid gid).run w es t' w' →
        Copies id names data uid gid es t' := by
  obtain ⟨names, spells⟩ := Archive.Path.exists_spells path.toList
  have answered (w : World) (c : Call) (serves : c.Serves) : ∃ r w', w.perform c = some (r, w') :=
    World.perform_isSome_of_provisions (serves.makes : c.Makes "").provisions
  refine ⟨names, fun _ => Archive.Path.spells_iff spells, fun w => ?_, fun w es t' w' => ?_⟩
  · obtain ⟨es, r, w', ends, -⟩ := (putFile_gives id path data uid gid).ends answered w
    exact ⟨es, r, w', ends, copies_of_follows (putFile_follows leads spells) ends.execution⟩
  · exact copies_of_follows (putFile_follows leads spells)

/-- A path with several slashes, a point and a slash at its end. -/
theorem file_is_copied_with_directories_of_slashes :
    Archive.Path.Leads "///opt/.//import.json/" ∧
      (∀ more, Archive.Path.Spells "///opt/.//import.json/".toList more ↔
        more = ["opt", "import.json"]) ∧
      (∀ w, ∃ es r w',
        Task.Ends (putFile "kc" "///opt/.//import.json/" [0x7B, 0x7D] 1000 0).run w es r w' ∧
          Copies "kc" ["opt", "import.json"] [0x7B, 0x7D] 1000 0 es (.done r)) ∧
      ∀ w es t' w',
        Task.Execution (putFile "kc" "///opt/.//import.json/" [0x7B, 0x7D] 1000 0).run w es t' w' →
          Copies "kc" ["opt", "import.json"] [0x7B, 0x7D] 1000 0 es t' := by
  have leads : Archive.Path.Leads "///opt/.//import.json/" := {
    printable := by decide
    absolute := by decide
    plain := by
      rintro rest ⟨⟩
      rfl
    named := fun none => absurd none.names_eq (by decide) }
  obtain ⟨names, spells, copied⟩ :=
    file_is_copied_with_directories leads "kc" [0x7B, 0x7D] 1000 0
  have read : names = ["opt", "import.json"] :=
    ((spells names).2 rfl).names_eq.symm.trans (by decide)
  rw [read] at spells copied
  exact ⟨leads, spells, copied⟩

end Client
end Testbed
