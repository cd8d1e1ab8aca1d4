import Mathlib.Data.List.Forall2
import SceneIndex.Flags.Text
import SceneIndex.Proofs.Flags.Parts
import SceneIndex.Proofs.Text.Numeral
import SceneIndex.Proofs.Text.Trim
import SceneIndex.Text.Reading

/-!
# Flag texts read back

A set of flags is written part by part, a piece of text for each, and the
pieces are joined by bars between blanks. Reading undoes these steps in turn,
and each has a lemma. `map_trim_splitOn_joinPieces` says that cutting at the
bars and trimming gives the pieces back. It asks of a piece only that it has no
bar in it and no blank at its ends, which is why it matters what the names of
flags look like. `readPiece_name` and `hexPiece_write` read one piece.

What is left is to unite what the pieces stand for. The pieces are those of the
parts of the set, so the union is the set (`unite_parts`), or its named half if
the rest was not written.

The three readers differ in what they do with a hexadecimal piece, and a text
of names alone has none. So on such a text they agree.

## Main definitions

* `Flags.IsPiece`: A text that can stand between bars.
* `Flags.isQuotable`: A character that can stand in quotes as it is.

## Theorems

* `map_trim_splitOn_joinPieces`: Joined pieces, cut and trimmed.
* `readWith_joinPieces`: Joined pieces are read piece by piece.
* `readChars_write`, `readStrictChars_writeStrict`: What is written reads back.
* `write_truncate`: The full text of the named half is the text of the names.
* `text_eq_intercalate`: What the full text looks like.
* `isQuotable_of_mem_write`: A text of flags needs no escapes in quotes.
* `text_faithful`: All texts, readers and sets.
-/

namespace SceneIndex

namespace Flags

open Text

/-- The text can stand between two bars: it has no bar in it, and it begins
    and ends with a character that is not blank. -/
structure IsPiece (piece : List Char) : Prop where
  bare : IsBare piece
  noBar : '|' ∉ piece

/-- The character can stand anywhere in a piece. -/
def isPieceChar (c : Char) : Bool := !isBlank c && c != '|'

theorem isPiece_of_forall {piece : List Char} (hne : piece ≠ [])
    (h : ∀ c ∈ piece, isPieceChar c = true) : IsPiece piece where
  bare := isBare_of_forall hne fun c hc => by
    have hc := h c hc
    unfold isPieceChar at hc
    rw [Bool.and_eq_true, Bool.not_eq_true'] at hc
    exact hc.1
  noBar := fun hbar => absurd (h '|' hbar) (by decide)

theorem isPiece_name (flag : Flag) : IsPiece flag.name.toList := by
  have hchars : flag.name.toList.all isPieceChar = true := by
    cases flag <;> decide
  refine isPiece_of_forall ?_ (List.all_eq_true.mp hchars)
  cases flag <;> decide

theorem isPiece_hex (n : Nat) : IsPiece (['0', 'x'] ++ Numeral.write 16 n) := by
  have hmarks : ['0', 'x'].all isPieceChar = true := by decide
  have hdigits : ∀ c ∈ Numeral.write 16 n, isPieceChar c = true :=
    Numeral.forall_mem_write (by decide) (by decide) n
  refine isPiece_of_forall (List.cons_ne_nil _ _) fun c hc => ?_
  rcases List.mem_append.mp hc with hmark | hdigit
  · exact List.all_eq_true.mp hmarks c hmark
  · exact hdigits c hdigit

theorem isBare_joinPieces {piece : List Char} {rest : List (List Char)}
    (h : ∀ p ∈ piece :: rest, IsPiece p) : IsBare (joinPieces (piece :: rest)) := by
  induction rest generalizing piece with
  | nil =>
      unfold joinPieces
      rw [List.intercalate_singleton]
      exact (h piece (List.mem_singleton_self piece)).bare
  | cons next rest ih =>
      unfold joinPieces
      rw [List.intercalate_cons_cons]
      exact (h piece List.mem_cons_self).bare.append
        (ih (fun p hp => h p (List.mem_cons_of_mem piece hp))) _

/-- Joined pieces, cut at the bars and trimmed, are the pieces again. Blanks in
    front make no difference, and the induction needs them: after a bar the
    next piece comes with the blank that joined it. -/
theorem map_trim_splitOn_joinPieces (before piece : List Char) (rest : List (List Char))
    (hbefore : ∀ c ∈ before, isBlank c = true) (h : ∀ p ∈ piece :: rest, IsPiece p) :
    ((before ++ joinPieces (piece :: rest)).splitOn '|').map trim = piece :: rest := by
  have hbar : '|' ∉ before := by
    intro hmem
    exact absurd (hbefore '|' hmem) (by decide)
  have hblank : ∀ c ∈ [' '], isBlank c = true := List.all_eq_true.mp (by decide)
  have hpiece : IsPiece piece := h piece List.mem_cons_self
  induction rest generalizing before piece with
  | nil =>
      have hone : '|' ∉ before ++ piece := by
        rw [List.mem_append]
        exact fun hmem => hmem.elim hbar hpiece.noBar
      have htrim := trim_padded hpiece.bare before [] hbefore
        (fun c hc => absurd hc List.not_mem_nil)
      rw [List.append_nil] at htrim
      unfold joinPieces
      rw [List.intercalate_singleton, List.splitOn_eq_singleton hone, List.map_singleton, htrim]
  | cons next rest ih =>
      have hfirst : '|' ∉ before ++ (piece ++ [' ']) := by
        rw [List.mem_append, List.mem_append]
        rintro (hmem | hmem | hmem)
        · exact hbar hmem
        · exact hpiece.noBar hmem
        · exact absurd hmem (by decide)
      have hcut : before ++ joinPieces (piece :: next :: rest)
          = (before ++ (piece ++ [' '])) ++ '|' :: ([' '] ++ joinPieces (next :: rest)) := by
        unfold joinPieces
        rw [List.intercalate_cons_cons]
        simp only [List.append_assoc, List.cons_append, List.nil_append]
      have hnext : ∀ p ∈ next :: rest, IsPiece p :=
        fun p hp => h p (List.mem_cons_of_mem piece hp)
      rw [hcut, List.splitOn_append_cons_self_of_not_mem hfirst, List.map_cons,
        trim_padded hpiece.bare before [' '] hbefore hblank,
        ih [' '] next hblank hnext (by decide) (hnext next List.mem_cons_self)]

/-- Reads trimmed pieces in turn and unites them with what was read before. -/
def readTrimmed (hex : List Char → Except ReadError Flags) (a : Flags)
    (pieces : List (List Char)) : Except ReadError Flags :=
  pieces.foldlM (fun a piece => (readPiece hex piece).map a.union) a

theorem readPieces_eq_readTrimmed (hex : List Char → Except ReadError Flags) (a : Flags)
    (pieces : List (List Char)) :
    readPieces hex a pieces = readTrimmed hex a (pieces.map trim) := by
  induction pieces generalizing a with
  | nil => rfl
  | cons piece rest ih =>
      unfold readPieces readTrimmed
      rw [List.map_cons, List.foldlM_cons]
      cases readPiece hex (trim piece) with
      | error e => rfl
      | ok b => exact ih (a.union b)

/-- Joined pieces are read piece by piece. -/
theorem readWith_joinPieces (hex : List Char → Except ReadError Flags)
    (pieces : List (List Char)) (h : ∀ p ∈ pieces, IsPiece p) :
    readWith hex (joinPieces pieces) = readTrimmed hex empty pieces := by
  cases pieces with
  | nil => rfl
  | cons piece rest =>
      have hbare := isBare_joinPieces h
      have hcut := map_trim_splitOn_joinPieces [] piece rest
        (fun c hc => absurd hc List.not_mem_nil) h
      rw [List.nil_append] at hcut
      have hsome : ¬ (joinPieces (piece :: rest)).isEmpty = true := by
        rw [List.isEmpty_iff]
        exact hbare.ne_nil
      unfold readWith
      simp only [trim_of_isBare hbare, if_neg hsome]
      rw [readPieces_eq_readTrimmed, hcut]

-- Pieces that stand for parts stand for the union of the parts.
theorem readTrimmed_of_parts (hex : List Char → Except ReadError Flags) (a : Flags)
    {pieces : List (List Char)} {parts : List Flags}
    (h : List.Forall₂ (fun piece part => readPiece hex piece = .ok part) pieces parts) :
    readTrimmed hex a pieces = .ok (parts.foldl union a) := by
  induction h generalizing a with
  | nil => rfl
  | cons hpiece _ ih =>
      unfold readTrimmed
      rw [List.foldlM_cons, hpiece]
      exact ih _

theorem readPiece_name (hex : List Char → Except ReadError Flags) (flag : Flag) :
    readPiece hex flag.name.toList = .ok (single flag) := by
  cases flag <;> rfl

-- Digits without a plus sign stand for the word that they are read as.
theorem hexWord?_of_unsigned {s : List Char} {n : Nat} (hsign : s.head? ≠ some '+')
    (hread : Numeral.read? 16 s = some n) (hlt : n < UInt32.size) :
    hexWord? s = some ⟨BitVec.ofNat 32 n⟩ := by
  unfold hexWord?
  split
  · exact absurd rfl hsign
  · simp only [hread, if_pos hlt]

-- A set of flags is read back from its number in hexadecimal digits. These do
-- not begin with the plus sign that is allowed in front of them.
theorem hexPiece_write (a : Flags) : hexPiece (Numeral.write 16 a.toNat) = .ok a := by
  have hread : Numeral.read? 16 (Numeral.write 16 a.toNat) = some a.toNat :=
    Numeral.read?_write (by decide) (by decide) a.toNat
  have hlt : a.toNat < UInt32.size := a.bits.isLt
  have hword : (⟨BitVec.ofNat 32 a.toNat⟩ : Flags) = a := by
    rcases a with ⟨word⟩
    exact congrArg Flags.mk (BitVec.ofNat_toNat 32 word)
  have hsign : (Numeral.write 16 a.toNat).head? ≠ some '+' := by
    intro hplus
    have hdigits : ∀ c ∈ Numeral.write 16 a.toNat, c ≠ '+' :=
      Numeral.forall_mem_write (by decide) (by decide) a.toNat
    exact hdigits '+' (List.mem_of_head? hplus) rfl
  unfold hexPiece
  rw [hexWord?_of_unsigned hsign hread hlt, hword]

theorem names_stand_for_singles (hex : List Char → Except ReadError Flags) (a : Flags) :
    List.Forall₂ (fun piece part => readPiece hex piece = .ok part) a.namePieces
      (a.flags.map single) := by
  unfold namePieces
  rw [List.forall₂_map_left_iff, List.forall₂_map_right_iff, List.forall₂_same]
  exact fun flag _ => readPiece_name hex flag

theorem pieces_stand_for_parts (a : Flags) :
    List.Forall₂ (fun piece part => readPiece hexPiece piece = .ok part)
      (a.namePieces ++ a.restPieces) a.parts := by
  unfold parts restPieces
  refine List.rel_append (names_stand_for_singles hexPiece a) ?_
  by_cases hrest : a.unnamed.isEmpty = true
  · rw [if_pos hrest, if_pos hrest]
    exact List.Forall₂.nil
  · rw [if_neg hrest, if_neg hrest]
    exact List.Forall₂.cons (hexPiece_write a.unnamed) List.Forall₂.nil

theorem isPiece_namePieces (a : Flags) : ∀ p ∈ a.namePieces, IsPiece p := by
  intro p hp
  rcases List.mem_map.mp hp with ⟨flag, _, rfl⟩
  exact isPiece_name flag

theorem isPiece_restPieces (a : Flags) : ∀ p ∈ a.restPieces, IsPiece p := by
  intro p hp
  unfold restPieces at hp
  split at hp
  · exact absurd hp List.not_mem_nil
  · rw [List.mem_singleton.mp hp]
    exact isPiece_hex _

/-- The full reader gives a set back from its full text. -/
theorem readChars_write (a : Flags) : readChars a.write = .ok a := by
  have hpieces : ∀ p ∈ a.namePieces ++ a.restPieces, IsPiece p := by
    intro p hp
    exact (List.mem_append.mp hp).elim (isPiece_namePieces a p) (isPiece_restPieces a p)
  unfold readChars write
  rw [readWith_joinPieces hexPiece _ hpieces,
    readTrimmed_of_parts hexPiece empty (pieces_stand_for_parts a), unite_parts]

/-- The strict reader gives the named half back from the names. -/
theorem readStrictChars_writeStrict (a : Flags) :
    readStrictChars a.writeStrict = .ok a.truncate := by
  unfold readStrictChars writeStrict
  rw [readWith_joinPieces _ _ (isPiece_namePieces a),
    readTrimmed_of_parts _ empty (names_stand_for_singles _ a), unite_singles]

-- The named half has the names and no rest.
theorem write_truncate (a : Flags) : a.truncate.write = a.writeStrict := by
  unfold write writeStrict namePieces restPieces
  rw [flags_truncate, unnamed_truncate, if_pos (by decide), List.append_nil]

/-- The full text has the names in the order of the bits, then all flags without
    a name as one number, and bars between them. -/
theorem text_eq_intercalate (a : Flags) :
    a.text = " | ".intercalate (a.flags.map Flag.name ++
      if a.unnamed.isEmpty then [] else ["0x" ++ Numeral.hex a.unnamed.toNat]) := by
  have hrest : (if a.unnamed.isEmpty then []
      else ["0x" ++ Numeral.hex a.unnamed.toNat]).map String.toList = a.restPieces := by
    unfold restPieces
    split
    · rfl
    · simp only [List.map_singleton, String.toList_append, Numeral.hex, String.toList_ofList]
      rfl
  apply String.toList_inj.mp
  unfold text write joinPieces
  rw [String.toList_ofList, String.toList_intercalate, List.map_append, hrest, List.map_map]
  rfl

-- Joining adds only bars and blanks.
theorem mem_joinPieces {pieces : List (List Char)} {c : Char} (hc : c ∈ joinPieces pieces) :
    c ∈ [' ', '|', ' '] ∨ ∃ piece ∈ pieces, c ∈ piece := by
  induction pieces with
  | nil => exact absurd hc List.not_mem_nil
  | cons piece rest ih =>
      cases rest with
      | nil =>
          unfold joinPieces at hc
          rw [List.intercalate_singleton] at hc
          exact Or.inr ⟨piece, List.mem_cons_self, hc⟩
      | cons next rest =>
          unfold joinPieces at hc
          rw [List.intercalate_cons_cons, List.append_assoc, List.mem_append,
            List.mem_append] at hc
          rcases hc with hc | hc | hc
          · exact Or.inr ⟨piece, List.mem_cons_self, hc⟩
          · exact Or.inl hc
          · exact (ih hc).imp_right fun ⟨p, hp, hcp⟩ => ⟨p, List.mem_cons_of_mem piece hp, hcp⟩

/-- The character can stand in quotes as it is, in any format. -/
def isQuotable (c : Char) : Bool :=
  0x20 ≤ c.toNat && c.toNat < 0x7f && c != doubleQuote && c != '\\'

theorem ne_of_isQuotable {c : Char} (h : isQuotable c = true) :
    c ≠ doubleQuote ∧ c ≠ '\\' := by
  constructor
  all_goals
    rintro rfl
    exact absurd h (by decide)

/-- Every character of the text of a set can stand in quotes as it is. -/
theorem isQuotable_of_mem_write (a : Flags) : ∀ c ∈ a.write, isQuotable c = true := by
  intro c hc
  have hbars : [' ', '|', ' '].all isQuotable = true := by decide
  have hmarks : ['0', 'x'].all isQuotable = true := by decide
  have hdigits : ∀ c ∈ Numeral.write 16 a.unnamed.toNat, isQuotable c = true :=
    Numeral.forall_mem_write (by decide) (by decide) _
  have hnames : ∀ flag : Flag, flag.name.toList.all isQuotable = true := by
    intro flag
    cases flag <;> decide
  rcases mem_joinPieces hc with hbar | ⟨piece, hpiece, hc⟩
  · exact List.all_eq_true.mp hbars c hbar
  · rcases List.mem_append.mp hpiece with hname | hrest
    · rcases List.mem_map.mp hname with ⟨flag, _, rfl⟩
      exact List.all_eq_true.mp (hnames flag) c hc
    · unfold restPieces at hrest
      split at hrest
      · exact absurd hrest List.not_mem_nil
      · rw [List.mem_singleton.mp hrest, List.mem_append] at hc
        rcases hc with hmark | hdigit
        · exact List.all_eq_true.mp hmarks c hmark
        · exact hdigits c hdigit

theorem read_text (a : Flags) : read a.text = .ok a := by
  unfold read text
  rw [String.toList_ofList, readChars_write]

theorem readKnown_text (a : Flags) : readKnown a.text = .ok a.truncate := by
  unfold readKnown readKnownChars text
  rw [String.toList_ofList, readChars_write]
  rfl

theorem readStrict_strictText (a : Flags) : readStrict a.strictText = .ok a.truncate := by
  unfold readStrict strictText
  rw [String.toList_ofList, readStrictChars_writeStrict]

theorem knownText_eq_strictText (a : Flags) : a.knownText = a.strictText := by
  unfold knownText text strictText
  rw [write_truncate]

/-- The full text of a set of flags is its names in the order of the bits and
    one number for all other flags, joined by bars. Every set reads back from
    it, whatever flags without a name it has. From the names alone the strict
    reader, and from the full text of the named half any reader, gives the named
    half. So does the truncating reader from the full text. Only equal sets have
    the same full text. -/
theorem text_faithful (a : Flags) :
    a.text = " | ".intercalate (a.flags.map Flag.name ++
      if a.unnamed.isEmpty then [] else ["0x" ++ Numeral.hex a.unnamed.toNat]) ∧
    read a.text = .ok a ∧
    readStrict a.strictText = .ok a.truncate ∧
    read a.knownText = .ok a.truncate ∧
    readStrict a.knownText = .ok a.truncate ∧
    readKnown a.knownText = .ok a.truncate ∧
    readKnown a.text = .ok a.truncate ∧
    ∀ b : Flags, a.text = b.text ↔ a = b := by
  refine ⟨text_eq_intercalate a, read_text a, readStrict_strictText a, read_text a.truncate, ?_,
    ?_, readKnown_text a, fun b => ⟨fun htexts => ?_, fun heq => congrArg text heq⟩⟩
  · rw [knownText_eq_strictText]
    exact readStrict_strictText a
  · unfold knownText
    rw [readKnown_text, truncate_truncate]
  · have hreads := (read_text a).symm.trans ((congrArg read htexts).trans (read_text b))
    exact Except.ok.inj hreads

end Flags

end SceneIndex
