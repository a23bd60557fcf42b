import BuildPipeline.Document.Json.Writer
import Mathlib.Algebra.Ring.Nat
import Mathlib.Data.Char
import Mathlib.Data.List.Basic

namespace BuildPipeline

variable {α β : Type}

/-- A code in which what follows a word can be told from the word itself. -/
def PrefixFree (code : α → List Char) : Prop :=
  ∀ ⦃a b : α⦄ ⦃r s : List Char⦄, code a ++ r = code b ++ s → a = b ∧ r = s

/-- A code of which no word is empty or begins with the character that ends a sequence of
them. -/
def Shuns (code : α → List Char) (close : Char) : Prop :=
  ∀ a, ∃ c rest, code a = c :: rest ∧ c ≠ close

namespace PrefixFree

variable {code : α → List Char} {other : β → List Char}

theorem injective (free : PrefixFree code) : Function.Injective code :=
  fun a b same => (free (r := []) (s := []) (by rw [same])).1

theorem comp (free : PrefixFree code) {f : β → α} (injective : Function.Injective f) :
    PrefixFree fun b => code (f b) := fun _ _ _ _ same =>
  ⟨injective (free same).1, (free same).2⟩

theorem cons (free : PrefixFree code) (mark : Char) : PrefixFree fun a => mark :: code a :=
  fun _ _ _ _ same => free (List.cons.inj same).2

theorem pair (free : PrefixFree code) (freeToo : PrefixFree other) (sep : List Char) :
    PrefixFree fun entry : α × β => code entry.1 ++ sep ++ other entry.2 := by
  intro a b r s same
  simp only [List.append_assoc] at same
  obtain ⟨first, later⟩ := free same
  obtain ⟨second, rest⟩ := freeToo (List.append_cancel_left later)
  exact ⟨Prod.ext first second, rest⟩

theorem closed (free : PrefixFree code) {close : Char} (shuns : Shuns code close) :
    PrefixFree fun items : List α => items.flatMap code ++ [close] := by
  intro items others r s same
  induction items generalizing others with
  | nil =>
      cases others with
      | nil => exact ⟨rfl, (List.cons.inj same).2⟩
      | cons b rest =>
          obtain ⟨c, letters, eq, ne⟩ := shuns b
          simp [eq, ne.symm] at same
  | cons a rest ih =>
      cases others with
      | nil =>
          obtain ⟨c, letters, eq, ne⟩ := shuns a
          simp [eq, ne] at same
      | cons b more =>
          simp only [List.flatMap_cons, List.append_assoc] at same
          obtain ⟨rfl, later⟩ := free same
          obtain ⟨rfl, last⟩ := ih (by simpa using later)
          exact ⟨rfl, last⟩

end PrefixFree

theorem intercalate_cons_eq (sep first : List Char) (rest : List (List Char)) :
    List.intercalate sep (first :: rest) = first ++ rest.flatMap (sep ++ ·) := by
  induction rest generalizing first with
  | nil => simp
  | cons second rest ih =>
      simp only [List.intercalate_cons_cons, ih, List.flatMap_cons, List.append_assoc]

/-- Words with a separator between them, closed by a character that is none of theirs to
begin with. -/
theorem PrefixFree.separated {code : α → List Char} (free : PrefixFree code)
    {sep close : Char} (apart : sep ≠ close) (shuns : Shuns code close) :
    PrefixFree fun items : List α =>
      List.intercalate [sep] (items.map code) ++ [close] := by
  -- After the first item the separator belongs to the word that it stands before.
  have later : PrefixFree fun items : List α =>
      items.flatMap (fun a => sep :: code a) ++ [close] :=
    (free.cons sep).closed fun a => ⟨sep, code a, rfl, apart⟩
  intro items others r s same
  cases items with
  | nil =>
      cases others with
      | nil => exact ⟨rfl, (List.cons.inj same).2⟩
      | cons b rest =>
          obtain ⟨c, letters, eq, ne⟩ := shuns b
          simp [intercalate_cons_eq, eq, ne.symm] at same
  | cons a rest =>
      cases others with
      | nil =>
          obtain ⟨c, letters, eq, ne⟩ := shuns a
          simp [intercalate_cons_eq, eq, ne] at same
      | cons b more =>
          simp only [List.map_cons, intercalate_cons_eq, List.append_assoc,
            List.flatMap_map] at same
          obtain ⟨rfl, tail⟩ := free same
          obtain ⟨rfl, last⟩ := later (by simpa using tail)
          exact ⟨rfl, last⟩

namespace Text

theorem hexDigits_one {n : Nat} (small : n < 16) : hexDigits 1 n = [n.digitChar] := by
  simp [hexDigits, Nat.toDigits_of_lt_base small]

theorem hexDigits_succ {width : Nat} (positive : 0 < width) (n : Nat) :
    hexDigits (width + 1) n = hexDigits width (n / 16) ++ [(n % 16).digitChar] := by
  by_cases small : n < 16
  · obtain ⟨width, rfl⟩ := Nat.exists_eq_add_of_le' positive
    simp [hexDigits, Nat.toDigits_of_lt_base small, Nat.div_eq_of_lt small,
      Nat.mod_eq_of_lt small, List.replicate_succ']
  · simp [hexDigits, Nat.toDigits_of_base_le (by decide) (Nat.le_of_not_lt small)]

theorem digitChar_inj {m n : Nat} (hm : m < 16) (hn : n < 16)
    (same : m.digitChar = n.digitChar) :
    m = n := by
  have all : ∀ m < 16, ∀ n < 16, m.digitChar = n.digitChar → m = n := by decide
  exact all m hm n hn same

theorem length_hexDigits {width n : Nat} (positive : 0 < width) (fits : n < 16 ^ width) :
    (hexDigits width n).length = width := by
  have short := (Nat.length_toDigits_le_iff (by decide : 1 < 16) positive).mpr fits
  simp only [hexDigits, List.length_append, List.length_replicate]
  omega

theorem hexDigits_inj {width m n : Nat} (positive : 0 < width) (hm : m < 16 ^ width)
    (hn : n < 16 ^ width) (same : hexDigits width m = hexDigits width n) : m = n := by
  induction width, positive using Nat.le_induction generalizing m n with
  | base =>
      rw [hexDigits_one (by simpa using hm), hexDigits_one (by simpa using hn)] at same
      exact digitChar_inj (by simpa using hm) (by simpa using hn) (List.cons.inj same).1
  | succ width positive ih =>
      rw [hexDigits_succ positive, hexDigits_succ positive] at same
      obtain ⟨front, last⟩ := List.append_inj' same rfl
      have high := ih (Nat.div_lt_of_lt_mul (by rwa [Nat.pow_succ'] at hm))
        (Nat.div_lt_of_lt_mul (by rwa [Nat.pow_succ'] at hn)) front
      have low := digitChar_inj (Nat.mod_lt m (by decide)) (Nat.mod_lt n (by decide))
        (List.cons.inj last).1
      omega

end Text

namespace Document.Json

theorem unitEscape_inj {m n : Nat} (hm : m < 0x10000) (hn : n < 0x10000) {r s : List Char}
    (same : unitEscape m ++ r = unitEscape n ++ s) : m = n ∧ r = s := by
  simp only [unitEscape, List.cons_append, List.cons.injEq, true_and] at same
  obtain ⟨digits, rest⟩ := List.append_inj same
    ((Text.length_hexDigits (by decide) hm).trans
      (Text.length_hexDigits (by decide) hn).symm)
  exact ⟨Text.hexDigits_inj (by decide) hm hn digits, rest⟩

theorem unitsEscape_inj {c d : Char} {r s : List Char}
    (same : unitsEscape c.toNat ++ r = unitsEscape d.toNat ++ s) : c = d ∧ r = s := by
  have bound : ∀ e : Char, e.toNat < 0xd800 ∨ 0xdfff < e.toNat ∧ e.toNat < 0x110000 :=
    fun e => e.valid
  have hc := bound c
  have hd := bound d
  unfold unitsEscape at same
  by_cases low : c.toNat < 0x10000 <;> by_cases lower : d.toNat < 0x10000
  · rw [if_pos low, if_pos lower] at same
    obtain ⟨code, rest⟩ := unitEscape_inj low lower same
    exact ⟨Char.toNat_inj.mp code, rest⟩
  · rw [if_pos low, if_neg lower, List.append_assoc] at same
    have := (unitEscape_inj low (by omega) same).1
    omega
  · rw [if_neg low, if_pos lower, List.append_assoc] at same
    have := (unitEscape_inj (by omega) lower same).1
    omega
  · rw [if_neg low, if_neg lower, List.append_assoc, List.append_assoc] at same
    obtain ⟨high, tail⟩ := unitEscape_inj (by omega) (by omega) same
    obtain ⟨rest, last⟩ := unitEscape_inj (by omega) (by omega) tail
    exact ⟨Char.toNat_inj.mp (by omega), last⟩

theorem unitsEscape_eq (code : Nat) :
    ∃ rest, unitsEscape code = Text.Quoted.backslash :: 'u' :: rest := by
  unfold unitsEscape
  split
  · exact ⟨_, rfl⟩
  · exact ⟨_, by rw [unitEscape, List.cons_append, List.cons_append]⟩

def shorts : List (Char × Char) :=
  [('"', '"'), ('\\', '\\'), ('\n', 'n'), ('\r', 'r'), ('\t', 't'),
    ('\x08', 'b'), ('\x0c', 'f')]

theorem mem_shorts {c letter : Char} (short : short? c = some letter) :
    (c, letter) ∈ shorts := by
  unfold short? at short
  split_ifs at short with quote line feed tab back page <;> cases short
  · rcases quote with rfl | rfl <;> decide
  · subst line
    decide
  · subst feed
    decide
  · subst tab
    decide
  · obtain rfl : c = '\x08' := Char.toNat_inj.mp back
    decide
  · obtain rfl : c = '\x0c' := Char.toNat_inj.mp page
    decide

theorem short?_inj {c d letter : Char} (first : short? c = some letter)
    (second : short? d = some letter) : c = d := by
  have distinct :
      ∀ entry ∈ shorts, ∀ twin ∈ shorts, entry.2 = twin.2 → entry.1 = twin.1 := by
    decide
  exact distinct _ (mem_shorts first) _ (mem_shorts second) rfl

theorem short?_ne_unit {c letter : Char} (short : short? c = some letter) :
    letter ≠ 'u' := by
  have none : ∀ entry ∈ shorts, entry.2 ≠ 'u' := by decide
  exact none _ (mem_shorts short)

/-- A character is written by a letter after a backslash, as it is, or in units. -/
inductive Escapes (c : Char) : List Char → Prop
  | short {letter : Char} (short : short? c = some letter) :
      Escapes c [Text.Quoted.backslash, letter]
  | plain (quote : c ≠ Text.Quoted.double) (backslash : c ≠ Text.Quoted.backslash) :
      Escapes c [c]
  | units : Escapes c (unitsEscape c.toNat)

theorem escape_escapes (c : Char) : Escapes c (escape c) := by
  unfold escape
  split
  · rename_i letter short
    exact .short short
  · rename_i long
    split
    · refine .plain ?_ ?_ <;> rintro rfl <;> exact nomatch long
    · exact .units

theorem escape_prefixFree : PrefixFree escape := by
  intro c d r s same
  have first := escape_escapes c
  have second := escape_escapes d
  generalize escape c = left at same first
  generalize escape d = right at same second
  obtain ⟨units, eq⟩ := unitsEscape_eq c.toNat
  obtain ⟨twins, eqToo⟩ := unitsEscape_eq d.toNat
  -- Codes of different shapes part at the first or the second character.
  cases first with
  | short short =>
      cases second with
      | short shortToo =>
          simp only [List.cons_append, List.nil_append, List.cons.injEq, true_and] at same
          obtain ⟨rfl, rest⟩ := same
          exact ⟨short?_inj short shortToo, rest⟩
      | plain _ backslash => exact absurd (List.cons.inj same).1.symm backslash
      | units =>
          rw [eqToo] at same
          exact absurd (List.cons.inj (List.cons.inj same).2).1 (short?_ne_unit short)
  | plain _ backslash =>
      cases second with
      | short => exact absurd (List.cons.inj same).1 backslash
      | plain => simpa using same
      | units =>
          rw [eqToo] at same
          exact absurd (List.cons.inj same).1 backslash
  | units =>
      cases second with
      | short shortToo =>
          rw [eq] at same
          exact absurd (List.cons.inj (List.cons.inj same).2).1.symm
            (short?_ne_unit shortToo)
      | plain _ backslash =>
          rw [eq] at same
          exact absurd (List.cons.inj same).1.symm backslash
      | units => exact unitsEscape_inj same

theorem escape_shuns : Shuns escape Text.Quoted.double := by
  intro c
  have written := escape_escapes c
  generalize escape c = letters at written
  cases written with
  | short => exact ⟨_, _, rfl, by decide⟩
  | plain quote => exact ⟨_, _, rfl, quote⟩
  | units =>
      obtain ⟨rest, eq⟩ := unitsEscape_eq c.toNat
      exact ⟨_, _, eq, by decide⟩

theorem encode_prefixFree : PrefixFree encode :=
  (escape_prefixFree.closed escape_shuns).cons Text.Quoted.double

example : encode ['a', '"', '𝄞'] = "\"a\\\"\\ud834\\udd1e\"".toList := by
  decide

def textCode (text : String) : List Char :=
  encode text.toList

def textsCode (texts : List String) : List Char :=
  '[' :: (List.intercalate [','] (texts.map textCode) ++ [']'])

def entryCode (entry : String × List String) : List Char :=
  textCode entry.1 ++ [':'] ++ textsCode entry.2

def tableCode (table : List (String × List String)) : List Char :=
  '\x7b' :: (List.intercalate [','] (table.map entryCode) ++ ['\x7d'])

theorem textCode_shuns {close : Char} (other : Text.Quoted.double ≠ close) :
    Shuns textCode close :=
  fun _ => ⟨_, _, rfl, other⟩

theorem textCode_prefixFree : PrefixFree textCode :=
  encode_prefixFree.comp fun _ _ => String.toList_inj.mp

theorem textsCode_prefixFree : PrefixFree textsCode :=
  (textCode_prefixFree.separated (by decide) (textCode_shuns (by decide))).cons '['

theorem tableCode_prefixFree : PrefixFree tableCode :=
  ((textCode_prefixFree.pair textsCode_prefixFree [':']).separated (by decide)
    fun _ => ⟨_, _, rfl, by decide⟩).cons '\x7b'

theorem writeItems_eq (style : Style) (items : List Value) :
    writeItems style items = items.map (write style) := by
  induction items with
  | nil => simp [writeItems]
  | cons item rest ih => simp [writeItems, ih]

theorem writeEntries_eq (style : Style) (entries : List (Value × Value)) :
    writeEntries style entries = entries.map (writeEntry style) := by
  induction entries with
  | nil => simp [writeEntries]
  | cons entry rest ih => simp [writeEntries, ih]

theorem toList_string (text : String) : (string text).toList = textCode text :=
  String.toList_ofList

theorem toList_write_texts (texts : List String) :
    (write compact (Value.texts texts)).toList = textsCode texts := by
  have item : compact.item = "," := rfl
  simp [Value.texts, write, writeItems_eq, textsCode, String.toList_intercalate,
    Function.comp_def, toList_string, item]

theorem toList_writeEntry (entry : String × List String) :
    (writeEntry compact (.string entry.1, Value.texts entry.2)).toList =
      entryCode entry := by
  have key : compact.key = ":" := rfl
  simp [writeEntry, keyText, entryCode, toList_string, toList_write_texts, key]

theorem toList_write_table (table : List (String × List String)) :
    (write compact
        (.object (table.map fun entry => (entry.1, Value.texts entry.2)))).toList =
      tableCode table := by
  have item : compact.item = "," := rfl
  simp [Value.object, write, writeEntries_eq, tableCode, String.toList_intercalate,
    Function.comp_def, toList_writeEntry, item, openBrace, closeBrace]

end Document.Json

end BuildPipeline
