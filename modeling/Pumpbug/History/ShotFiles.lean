import Mathlib.Data.List.AList
import Mathlib.Data.List.DropRight
import Mathlib.Data.List.Sort
import Pumpbug.Lib.Decimal
import Pumpbug.Wire

/-!
# Shot files

`ShotStore.cpp`: records are files `/shots/00000001.bin`.  The name carries the id, and a header of
a supported version makes the file a valid record.
-/

namespace Pumpbug

open Lib

/-- A file's name inside its directory. -/
structure FileName where
  chars : List Char
  plain : '/' ∉ chars
  deriving DecidableEq

inductive DirEntry where
  | directory
  | file (bytes : Bytes)
  deriving DecidableEq

/-- The entries of `/shots`. -/
abbrev ShotFiles := AList fun _ : FileName => DirEntry

namespace ShotStore

def kShotIdDigits : ℕ := 8

def maxIdForDigits : ℕ → ℕ
  | 0 => 0
  | digits + 1 => maxIdForDigits digits * 10 + 9

/-- Largest id that fits in a shot filename. -/
def kMaxShotId : ℕ := maxIdForDigits kShotIdDigits

def kMaxShots : ℕ := 250

def kShotsDir : List Char := "/shots".toList

/-! ## Names -/

/-- The id in a file's name, with or without the directory in front; 0 for other names. -/
def parseIdFromName (name : List Char) : ℕ :=
  let base := name.rtakeWhile (· ≠ '/')
  if base.length ≠ kShotIdDigits + 4 ∨ base.drop kShotIdDigits ≠ ".bin".toList then 0
  else if (base.take kShotIdDigits).all Char.isDigit then Decimal.value (base.take kShotIdDigits)
  else 0

def baseName (id : ℕ) : List Char := Decimal.format kShotIdDigits id ++ ".bin".toList

/-- `_pathFor`. -/
def pathFor (id : ℕ) : List Char := kShotsDir ++ '/' :: baseName id

theorem plain_baseName (id : ℕ) : '/' ∉ baseName id := by
  intro h
  rcases List.mem_append.1 h with h | h
  · exact absurd (Decimal.isDigit_of_mem_format h) (by decide)
  · exact absurd h (by decide)

/-- The name of a record in the directory. -/
def fileName (id : ℕ) : FileName := ⟨baseName id, plain_baseName id⟩

/-- What `File::name` gives: ports differ on whether it includes the directory. -/
def reportedName (withDir : Bool) (name : FileName) : List Char :=
  if withDir then kShotsDir ++ '/' :: name.chars else name.chars

theorem rtakeWhile_plain {cs : List Char} (h : '/' ∉ cs) : cs.rtakeWhile (· ≠ '/') = cs := by
  rw [List.rtakeWhile_eq_self_iff]
  intro c hc
  exact decide_eq_true fun heq => h (heq ▸ hc)

theorem rtakeWhile_path (dir : List Char) {cs : List Char} (h : '/' ∉ cs) :
    (dir ++ '/' :: cs).rtakeWhile (· ≠ '/') = cs := by
  unfold List.rtakeWhile
  have hrev : ∀ c ∈ cs.reverse, decide (c ≠ '/') = true := by
    intro c hc
    exact decide_eq_true fun heq => h (heq ▸ List.mem_reverse.1 hc)
  rw [List.reverse_append, List.reverse_cons, List.append_assoc, List.singleton_append,
    List.takeWhile_append_of_pos hrev, List.takeWhile_cons_of_neg (by decide), List.append_nil,
    List.reverse_reverse]

theorem parseIdFromName_reported (withDir : Bool) (name : FileName) :
    parseIdFromName (reportedName withDir name) = parseIdFromName name.chars := by
  unfold parseIdFromName reportedName
  cases withDir with
  | false => rfl
  | true =>
    rw [if_pos rfl, rtakeWhile_path kShotsDir name.plain, rtakeWhile_plain name.plain]

theorem lt_of_le_kMaxShotId {id : ℕ} (h : id ≤ kMaxShotId) : id < 10 ^ kShotIdDigits := by
  have hmax : kMaxShotId = 99999999 := rfl
  have hdigits : kShotIdDigits = 8 := rfl
  rw [hdigits]
  omega

theorem parseIdFromName_baseName {id : ℕ} (h : id ≤ kMaxShotId) :
    parseIdFromName (baseName id) = id := by
  have hlen := Decimal.length_format (w := kShotIdDigits) (by decide) (lt_of_le_kMaxShotId h)
  unfold parseIdFromName
  rw [rtakeWhile_plain (plain_baseName id)]
  unfold baseName
  dsimp only
  rw [if_neg, List.take_left' hlen, if_pos, Decimal.value_format]
  · rw [List.all_eq_true]
    exact fun c hc => Decimal.isDigit_of_mem_format hc
  · rw [not_or, not_not, not_not, List.drop_left' hlen, List.length_append, hlen]
    exact ⟨rfl, rfl⟩

/-- A path that the store creates leads back to its id. -/
theorem parseIdFromName_pathFor {id : ℕ} (h : id ≤ kMaxShotId) : parseIdFromName (pathFor id) = id := by
  have hreported := parseIdFromName_reported true (fileName id)
  have hpath : reportedName true (fileName id) = pathFor id := rfl
  rw [hpath] at hreported
  exact hreported.trans (parseIdFromName_baseName h)

/-- Only one name carries an id. -/
theorem fileName_parse {name : FileName} (h : parseIdFromName name.chars ≠ 0) :
    fileName (parseIdFromName name.chars) = name := by
  have hbase : baseName (parseIdFromName name.chars) = name.chars := by
    unfold parseIdFromName at h ⊢
    rw [rtakeWhile_plain name.plain] at h ⊢
    dsimp only at h ⊢
    by_cases hform : name.chars.length ≠ kShotIdDigits + 4 ∨
        name.chars.drop kShotIdDigits ≠ ".bin".toList
    · rw [if_pos hform] at h
      exact absurd rfl h
    · rw [if_neg hform] at h ⊢
      obtain ⟨hlen, hext⟩ := not_or.1 hform
      rw [not_not] at hlen hext
      by_cases hall : (name.chars.take kShotIdDigits).all Char.isDigit = true
      · rw [if_pos hall]
        unfold baseName
        rw [Decimal.format_value (by decide), ← hext, List.take_append_drop]
        · rw [List.length_take, hlen]
          rfl
        · exact List.all_eq_true.1 hall
      · rw [if_neg hall] at h
        exact absurd rfl h
  cases name with
  | mk chars plain =>
    unfold fileName
    congr

theorem parse_le_kMaxShotId (name : List Char) : parseIdFromName name ≤ kMaxShotId := by
  unfold parseIdFromName
  dsimp only
  split_ifs with hform hall
  · exact Nat.zero_le _
  · have hlt := Decimal.value_lt (List.all_eq_true.1 hall)
    have hle : ((name.rtakeWhile (· ≠ '/')).take kShotIdDigits).length ≤ kShotIdDigits :=
      List.length_take_le _ _
    have hpow := Nat.pow_le_pow_right (show 0 < 10 by decide) hle
    have hmax : 10 ^ kShotIdDigits = kMaxShotId + 1 := rfl
    omega
  · exact Nat.zero_le _

/-! ## Records in the directory -/

def hasSupportedShotHeader (header : Bytes) : Bool :=
  byteAt header 0 = 0x45 && byteAt header 1 = 0x58 && byteAt header 2 = 0x54 &&
    byteAt header 3 = 0x52 && isCompactVersionSupported (byteAt header 4)

def isValidShotHeader (header : Bytes) : Bool :=
  header.length = kCompactHeaderBytes && hasSupportedShotHeader header

/-- The id of a directory entry, if it is a file named as a record. -/
def entryId (withDir : Bool) (entry : Sigma fun _ : FileName => DirEntry) : Option ℕ :=
  match entry.2 with
  | .directory => none
  | .file _ =>
    let id := parseIdFromName (reportedName withDir entry.1)
    if id ≠ 0 then some id else none

/-- The ids of all shot files. -/
def shotIds (files : ShotFiles) : List ℕ := files.entries.filterMap (entryId false)

theorem entryId_eq (withDir : Bool) (entry : Sigma fun _ : FileName => DirEntry) :
    entryId withDir entry = entryId false entry := by
  unfold entryId
  rw [parseIdFromName_reported, parseIdFromName_reported]

theorem entryId_eq_some {entry : Sigma fun _ : FileName => DirEntry} {id : ℕ}
    (h : entryId false entry = some id) :
    entry.1 = fileName id ∧ id ≠ 0 ∧ id ≤ kMaxShotId ∧ ∃ bytes, entry.2 = .file bytes := by
  obtain ⟨name, content⟩ := entry
  unfold entryId at h
  cases content with
  | directory => cases h
  | file bytes =>
    rw [parseIdFromName_reported] at h
    dsimp only at h
    by_cases hid : parseIdFromName name.chars ≠ 0
    · rw [if_pos hid] at h
      obtain rfl := Option.some.inj h
      exact ⟨(fileName_parse hid).symm, hid, parse_le_kMaxShotId _, bytes, rfl⟩
    · rw [if_neg hid] at h
      cases h

theorem entryId_fileName {id : ℕ} (h₀ : id ≠ 0) (h : id ≤ kMaxShotId) (bytes : Bytes) :
    entryId false ⟨fileName id, .file bytes⟩ = some id := by
  have hparse : parseIdFromName (reportedName false (fileName id)) = id :=
    (parseIdFromName_reported false _).trans (parseIdFromName_baseName h)
  unfold entryId
  dsimp only
  rw [hparse, if_pos h₀]

theorem mem_shotIds {files : ShotFiles} {id : ℕ} :
    id ∈ shotIds files ↔
      id ≠ 0 ∧ id ≤ kMaxShotId ∧ ∃ bytes, files.lookup (fileName id) = some (.file bytes) := by
  unfold shotIds
  rw [List.mem_filterMap]
  constructor
  · rintro ⟨entry, hmem, hid⟩
    obtain ⟨hname, h₀, hle, bytes, hcontent⟩ := entryId_eq_some hid
    refine ⟨h₀, hle, bytes, AList.mem_lookup_iff.2 ?_⟩
    rw [← hname, ← hcontent]
    exact hmem
  · rintro ⟨h₀, hle, bytes, hlookup⟩
    exact ⟨_, AList.mem_lookup_iff.1 hlookup, entryId_fileName h₀ hle bytes⟩

theorem nodup_shotIds (files : ShotFiles) : (shotIds files).Nodup := by
  have hkeys := List.nodupKeys_iff_pairwise.1 files.nodupKeys
  refine List.Pairwise.filterMap (entryId false) ?_ hkeys
  intro entry entry' hne id hid id' hid' heq
  have h := (entryId_eq_some hid).1
  have h' := (entryId_eq_some hid').1
  exact hne (h.trans ((congrArg fileName heq).trans h'.symm))

theorem fileName_inj {id id' : ℕ} (h : id ≤ kMaxShotId) (h' : id' ≤ kMaxShotId)
    (heq : fileName id = fileName id') : id = id' := by
  have hchars : baseName id = baseName id' := congrArg FileName.chars heq
  rw [← parseIdFromName_baseName h, hchars, parseIdFromName_baseName h']

theorem mem_shotIds_insert {files : ShotFiles} {id k : ℕ} (h₀ : id ≠ 0) (h : id ≤ kMaxShotId)
    (bytes : Bytes) :
    k ∈ shotIds (files.insert (fileName id) (.file bytes)) ↔ k = id ∨ k ∈ shotIds files := by
  by_cases hk : k = id
  · rw [hk]
    refine iff_of_true (mem_shotIds.2 ⟨h₀, h, bytes, AList.lookup_insert files⟩) (Or.inl rfl)
  · rw [mem_shotIds, mem_shotIds, or_iff_right hk]
    constructor
    · rintro ⟨hk₀, hle, content, hlookup⟩
      rw [AList.lookup_insert_ne fun heq => hk (fileName_inj hle h heq)] at hlookup
      exact ⟨hk₀, hle, content, hlookup⟩
    · rintro ⟨hk₀, hle, content, hlookup⟩
      refine ⟨hk₀, hle, content, ?_⟩
      rw [AList.lookup_insert_ne fun heq => hk (fileName_inj hle h heq)]
      exact hlookup

theorem mem_shotIds_erase {files : ShotFiles} {id k : ℕ} (h : id ≤ kMaxShotId) :
    k ∈ shotIds (files.erase (fileName id)) ↔ k ≠ id ∧ k ∈ shotIds files := by
  by_cases hk : k = id
  · rw [hk]
    refine iff_of_false ?_ fun hno => hno.1 rfl
    intro hmem
    obtain ⟨-, -, bytes, hlookup⟩ := mem_shotIds.1 hmem
    rw [AList.lookup_erase] at hlookup
    cases hlookup
  · rw [mem_shotIds, mem_shotIds]
    constructor
    · rintro ⟨hk₀, hle, content, hlookup⟩
      rw [AList.lookup_erase_ne fun heq => hk (fileName_inj hle h heq)] at hlookup
      exact ⟨hk, hk₀, hle, content, hlookup⟩
    · rintro ⟨-, hk₀, hle, content, hlookup⟩
      refine ⟨hk₀, hle, content, ?_⟩
      rw [AList.lookup_erase_ne fun heq => hk (fileName_inj hle h heq)]
      exact hlookup

end ShotStore

end Pumpbug
