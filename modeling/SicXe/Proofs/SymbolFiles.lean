import Mathlib.Data.List.Nodup
import SicXe.Proofs.Decoding
import SicXe.Proofs.Numerals
import SicXe.Symbol.File

/-!
# Reading a symbol file back

Every part of a symbol file is read back from what was written of it, whatever follows:

* `decodeNumber?_encodeNumber`, `decodeText?_encodeText`: numbers and texts.
* `decodeEntries?_entries`: labels with their addresses, none of which is in the table yet.
* `decodeFields?_cons`: one field, behind its distance from the field before. A field that is left
  out changes the distance of the next one, so the number in front is kept general.
* `decode_encode_perm`: the whole file, with its labels written in any order.

A number is written with at most 128 bytes, since the byte in front counts them downwards from 256
and is at least 128. This is the only bound, and it is one on the length of the message.
-/

namespace SicXe

/-! ## Tables as maps -/

namespace SymbolTable

/-- No label has two addresses. -/
def Distinct (table : SymbolTable) : Prop := (table.entries.map (·.1)).Nodup

instance (table : SymbolTable) : Decidable table.Distinct :=
  inferInstanceAs (Decidable (List.Nodup _))

variable {table table' : SymbolTable}

theorem Distinct.get?_eq_some_iff (h : table.Distinct) {label : Text} {address : UInt32} :
    table.get? label = some address ↔ (label, address) ∈ table.entries := by
  rw [get?, Option.map_eq_some_iff]
  constructor
  · rintro ⟨entry, hfind, rfl⟩
    have hlabel : entry.1 = label := by simpa using List.find?_some hfind
    rw [← hlabel]
    exact List.mem_of_find?_eq_some hfind
  · intro hmem
    cases hfind : table.entries.find? (·.1 == label) with
    | none => simpa using List.find?_eq_none.1 hfind _ hmem
    | some entry =>
      have hlabel : entry.1 = label := by simpa using List.find?_some hfind
      refine ⟨entry, rfl, ?_⟩
      rw [List.inj_on_of_nodup_map h (List.mem_of_find?_eq_some hfind) hmem hlabel]

theorem Distinct.perm (h : table.Distinct) (hperm : table'.entries.Perm table.entries) :
    table'.Distinct :=
  (hperm.map _).nodup_iff.2 h

/-- The order of its entries does not matter to a table. -/
theorem Distinct.get?_perm (h : table.Distinct) (hperm : table'.entries.Perm table.entries)
    (label : Text) : table'.get? label = table.get? label := by
  refine Option.ext fun address => ?_
  rw [(h.perm hperm).get?_eq_some_iff, h.get?_eq_some_iff, hperm.mem_iff]

theorem insert_of_not_mem {label : Text} (h : label ∉ table.entries.map (·.1))
    (address : UInt32) :
    table.insert label address = { entries := table.entries ++ [(label, address)] } := by
  have hkept : table.entries.filter (·.1 != label) = table.entries := by
    refine List.filter_eq_self.2 fun entry hentry => bne_iff_ne.2 fun heq => ?_
    exact h (heq ▸ List.mem_map_of_mem hentry)
  rw [insert, hkept]

end SymbolTable

namespace SymbolFile

/-! ## Numbers and texts -/

/-- The digits of a number in base 256 are its bytes. -/
theorem bigEndian_digits (n : Nat) : bigEndian (Numeral.digits UInt8.ofNat 256 n) = n := by
  have hbyte : ∀ d < 256, (UInt8.ofNat d).toNat = d := by
    intro d hd
    rw [UInt8.toNat_ofNat', Nat.mod_eq_of_lt hd]
  exact Numeral.foldl_digitsBefore (by decide) hbyte [] (Nat.lt_succ_self n)

/-- One more than the largest number that can be written. -/
def numberLimit : Nat := 256 ^ 128

theorem takeBytes?_append (t rest : Text) : takeBytes? t.length (t ++ rest) = some (t, rest) := by
  simp [takeBytes?]

theorem encodeNumber_ne_nil (n : Nat) : encodeNumber n ≠ [] := by
  unfold encodeNumber
  split <;> exact List.cons_ne_nil _ _

theorem decodeNumber?_encodeNumber {n : Nat} (h : n < numberLimit) (rest : Text) :
    decodeNumber? (encodeNumber n ++ rest) = some (n, rest) := by
  unfold encodeNumber
  split
  case isTrue hsmall =>
    have hb : (UInt8.ofNat n).toNat = n := by
      rw [UInt8.toNat_ofNat', Nat.mod_eq_of_lt (by omega)]
    rw [List.singleton_append, decodeNumber?, hb, if_pos hsmall]
  case isFalse hlarge =>
    dsimp only
    -- the count in front is told from a small number by being at least 128
    have hcount : 0 < (Numeral.digits UInt8.ofNat 256 n).length :=
      List.length_pos_iff.2 (Numeral.digitsBefore_ne_nil (.inl (Nat.succ_ne_zero n)))
    have hfew : (Numeral.digits UInt8.ofNat 256 n).length ≤ 127 + 1 :=
      Numeral.length_digitsBefore_le UInt8.ofNat (n + 1) [] h
    have hvalue := bigEndian_digits n
    generalize Numeral.digits UInt8.ofNat 256 n = bytes at hcount hfew hvalue ⊢
    have hb : (UInt8.ofNat (256 - bytes.length)).toNat = 256 - bytes.length := by
      rw [UInt8.toNat_ofNat', Nat.mod_eq_of_lt (by omega)]
    rw [List.cons_append, decodeNumber?, hb, if_neg (by omega),
      show 256 - (256 - bytes.length) = bytes.length by omega, takeBytes?_append, Option.map_some]
    exact congrArg (fun value => some (value, rest)) hvalue

theorem decodeText?_encodeText {t : Text} (h : t.length < numberLimit) (rest : Text) :
    decodeText? (encodeText t ++ rest) = some (t, rest) := by
  rw [decodeText?, encodeText, List.append_assoc, decodeNumber?_encodeNumber h]
  exact takeBytes?_append t rest

/-! ## Labels -/

theorem toNat_lt_numberLimit (address : UInt32) : address.toNat < numberLimit :=
  Nat.lt_of_lt_of_le address.toNat_lt (by decide +kernel)

/-- Labels that are new to a table are added to it in the order in which they were written. -/
theorem decodeEntries?_entries (rest : Text) : ∀ {entries : List (Text × UInt32)}
    {table : SymbolTable}, SymbolTable.Distinct ⟨table.entries ++ entries⟩ →
    (∀ entry ∈ entries, entry.1.length < numberLimit) →
    decodeEntries? table entries.length (entries.flatMap encodeEntry ++ rest) =
      some (⟨table.entries ++ entries⟩, rest)
  | [], table, _, _ => by simp [decodeEntries?]
  | (label, address) :: entries, table, hdistinct, hlength => by
    have hnew : label ∉ table.entries.map (·.1) := by
      rw [SymbolTable.Distinct, List.map_append, List.nodup_append] at hdistinct
      exact fun hmem => hdistinct.2.2 label hmem label (by simp) rfl
    have hinsert := SymbolTable.insert_of_not_mem hnew address
    have hnext : decodeEntries? (table.insert label address) entries.length
        (entries.flatMap encodeEntry ++ rest) =
          some (⟨(table.insert label address).entries ++ entries⟩, rest) := by
      refine decodeEntries?_entries rest ?_ fun entry hentry =>
        hlength entry (List.mem_cons_of_mem _ hentry)
      rwa [hinsert, List.append_assoc]
    rw [List.length_cons, decodeEntries?, List.flatMap_cons, encodeEntry, List.append_assoc,
      List.append_assoc, decodeText?_encodeText (hlength _ List.mem_cons_self), Option.bind_eq_bind,
      Option.bind_some]
    dsimp only
    rw [decodeNumber?_encodeNumber (toNat_lt_numberLimit address), Option.bind_eq_bind,
      Option.bind_some]
    dsimp only
    rw [UInt32.ofNat_toNat, hnext, hinsert, List.append_assoc]
    rfl

/-! ## Fields -/

/-- One field is read and the others are left. -/
theorem decodeFields?_cons {file next : SymbolFile} {before number fuel : Nat} {content rest : Text}
    (hbefore : before < number) (hnumber : number < numberLimit)
    (hfield : decodeField? file number (content ++ rest) = some (next, rest)) :
    decodeFields? file before (fuel + 1) (encodeNumber (number - before) ++ content ++ rest) =
      decodeFields? next number fuel rest := by
  have hdistance := decodeNumber?_encodeNumber (n := number - before) (by omega) (content ++ rest)
  rw [List.append_assoc]
  cases hwritten : encodeNumber (number - before) ++ (content ++ rest) with
  | nil => exact absurd (List.append_eq_nil_iff.1 hwritten).1 (encodeNumber_ne_nil _)
  | cons b t =>
    rw [hwritten] at hdistance
    rw [decodeFields?, hdistance, Option.bind_eq_bind, Option.bind_some]
    dsimp only
    rw [if_neg (by omega), show before + (number - before) = number by omega, hfield]
    rfl

/-- The mark behind the last field ends the message. -/
theorem decodeFields?_mark (file : SymbolFile) (before fuel : Nat) :
    decodeFields? file before (fuel + 1) (encodeFields before []) = some file := rfl

variable {file : SymbolFile} {rest : Text}

theorem decodeField?_source {source : Text} (h : source.length < numberLimit) :
    decodeField? file 1 (encodeText source ++ rest) = some ({ file with source }, rest) := by
  rw [decodeField?, decodeText?_encodeText h]
  rfl

theorem decodeField?_mode (mode : UInt64) :
    decodeField? file 2 (encodeNumber mode.toNat ++ rest) = some ({ file with mode }, rest) := by
  have hmode : mode.toNat < numberLimit :=
    Nat.lt_of_lt_of_le mode.toNat_lt (by decide +kernel)
  rw [decodeField?, decodeNumber?_encodeNumber hmode, Option.map_some]
  dsimp only
  rw [UInt64.ofNat_toNat]

theorem decodeField?_symbols {symbols : SymbolTable} (hdistinct : symbols.Distinct)
    (hcount : symbols.entries.length < numberLimit)
    (hlength : ∀ entry ∈ symbols.entries, entry.1.length < numberLimit) :
    decodeField? file 3 (encodeEntries symbols.entries ++ rest) =
      some ({ file with symbols }, rest) := by
  have hentries : decodeEntries? .empty symbols.entries.length
      (symbols.entries.flatMap encodeEntry ++ rest) = some (symbols, rest) :=
    decodeEntries?_entries rest hdistinct hlength
  rw [encodeEntries, List.append_assoc, decodeField?, decodeNumber?_encodeNumber hcount,
    Option.bind_eq_bind, Option.bind_some]
  dsimp only
  rw [hentries]
  rfl

/-! ## Messages -/

/-- The content of the one message of a symbol file. -/
def message (file : SymbolFile) : Text := messageLayout ++ encodeFields 0 file.fields

theorem length_content_le : ∀ {fields : List (Nat × Text)} {number : Nat} {content : Text}
    (before : Nat), (number, content) ∈ fields →
    content.length ≤ (encodeFields before fields).length
  | (number', content') :: fields, number, content, before, h => by
    rw [encodeFields, List.length_append, List.length_append]
    rcases List.mem_cons.1 h with heq | hmem
    · cases heq
      omega
    · have := length_content_le number' hmem
      omega

theorem length_source_le (file : SymbolFile) : file.source.length ≤ file.message.length := by
  by_cases hsource : file.source = []
  · rw [hsource]
    exact Nat.zero_le _
  · have hmem : (1, encodeText file.source) ∈ file.fields := by simp [fields, hsource]
    have := length_content_le 0 hmem
    rw [encodeText, List.length_append] at this
    rw [message, List.length_append]
    omega

theorem length_entries_le (file : SymbolFile) :
    (file.symbols.entries.flatMap encodeEntry).length ≤ file.message.length := by
  have hmem : (3, encodeEntries file.symbols.entries) ∈ file.fields := by simp [fields]
  have := length_content_le 0 hmem
  rw [encodeEntries, List.length_append] at this
  rw [message, List.length_append]
  omega

/-- A label takes as many bytes as it has, and one more at least. -/
theorem length_le_flatMap (entries : List (Text × UInt32)) :
    entries.length ≤ (entries.flatMap encodeEntry).length ∧
      ∀ entry ∈ entries, entry.1.length ≤ (entries.flatMap encodeEntry).length := by
  induction entries with
  | nil => simp
  | cons entry entries ih =>
    have hpos := List.length_pos_iff.2 (encodeNumber_ne_nil entry.2.toNat)
    rw [List.flatMap_cons, List.length_append, encodeEntry, encodeText, List.length_append,
      List.length_append, List.length_cons]
    refine ⟨by omega, List.forall_mem_cons.2 ⟨by omega, fun other hother => ?_⟩⟩
    have := ih.2 other hother
    omega

section
variable (hdistinct : file.symbols.Distinct) (hlength : file.message.length < numberLimit)
include hdistinct hlength

/-- The labels come last and are always there. -/
theorem decodeFields?_symbols (read : SymbolFile) {before : Nat} (hbefore : before < 3)
    (fuel : Nat) :
    decodeFields? read before (fuel + 2)
        (encodeFields before [(3, encodeEntries file.symbols.entries)]) =
      some { read with symbols := file.symbols } := by
  obtain ⟨hcount, hlabels⟩ := length_le_flatMap file.symbols.entries
  have hentries := file.length_entries_le
  rw [encodeFields]
  rw [decodeFields?_cons hbefore (by decide +kernel) (decodeField?_symbols hdistinct (by omega)
    fun entry hentry => Nat.lt_of_le_of_lt (hlabels entry hentry) (by omega))]
  exact decodeFields?_mark _ 3 fuel

/-- The machine, unless it has the number zero, and what comes behind it. -/
theorem decodeFields?_mode {read : SymbolFile} (hread : read.mode = 0) {before : Nat}
    (hbefore : before < 2) (fuel : Nat) :
    decodeFields? read before (fuel + 3) (encodeFields before
        ((if file.mode = 0 then [] else [(2, encodeNumber file.mode.toNat)]) ++
          [(3, encodeEntries file.symbols.entries)])) =
      some { read with mode := file.mode, symbols := file.symbols } := by
  split
  case isTrue hmode =>
    rw [List.nil_append, decodeFields?_symbols hdistinct hlength read (by omega) (fuel + 1),
      hmode, ← hread]
  case isFalse hmode =>
    rw [List.singleton_append, encodeFields]
    rw [decodeFields?_cons hbefore (by decide +kernel) (decodeField?_mode file.mode)]
    exact decodeFields?_symbols hdistinct hlength _ (by decide) fuel

/-- **All fields are read back**, those that were left out as empty. -/
theorem decodeFields?_fields : decodeFields? {} 0 4 (encodeFields 0 file.fields) = some file := by
  have hsource := file.length_source_le
  rw [fields, List.append_assoc]
  split
  case isTrue hempty =>
    rw [List.nil_append, decodeFields?_mode hdistinct hlength rfl (by decide) 1, ← hempty]
  case isFalse hempty =>
    rw [List.singleton_append, encodeFields]
    rw [decodeFields?_cons (by decide) (by decide +kernel) (decodeField?_source (by omega))]
    exact decodeFields?_mode hdistinct hlength rfl (by decide) 0

theorem decodeMessage?_message : decodeMessage? file.message = some file := by
  have hlayout : messageLayout.isPrefixOf file.message = true :=
    List.isPrefixOf_iff_prefix.2 (List.prefix_append _ _)
  rw [decodeMessage?, if_pos hlayout, message, List.drop_left]
  exact decodeFields?_fields hdistinct hlength

theorem decode_encode : decode file.encode = .ok file := by
  have hencode : file.encode = layout ++ encodeText file.message := rfl
  have hne : file.encode ≠ [] := by
    rw [hencode]
    exact List.append_ne_nil_of_left_ne_nil (by decide) _
  have hlayout : layout.isPrefixOf file.encode = true :=
    List.isPrefixOf_iff_prefix.2 (List.prefix_append _ _)
  have htext : decodeText? (encodeText file.message) = some (file.message, []) := by
    have := decodeText?_encodeText hlength []
    rwa [List.append_nil] at this
  rw [decode, if_neg hne, if_pos hlayout, hencode, List.drop_left, htext]
  dsimp only
  rw [Option.bind_eq_bind, Option.bind_some, decodeMessage?_message hdistinct hlength]

end

/-- The length of a message does not depend on the order of the labels. -/
theorem length_message_perm {entries : List (Text × UInt32)}
    (h : entries.Perm file.symbols.entries) :
    (message { file with symbols := ⟨entries⟩ }).length = file.message.length := by
  have hentries : (encodeEntries entries).length = (encodeEntries file.symbols.entries).length := by
    rw [encodeEntries, encodeEntries, List.length_append, List.length_append, h.length_eq,
      (h.flatMap_right encodeEntry).length_eq]
  unfold message fields
  split <;> split <;> simp [encodeFields, hentries]

/-- **A symbol file is read back**, whatever the order in which its labels are written: the source,
the machine and the address of every label are those that were written. -/
theorem decode_encode_perm (hdistinct : file.symbols.Distinct)
    (hlength : file.message.length < numberLimit) {entries : List (Text × UInt32)}
    (hperm : entries.Perm file.symbols.entries) :
    ∃ read, decode (encode { file with symbols := ⟨entries⟩ }) = .ok read ∧
      read.source = file.source ∧ read.mode = file.mode ∧ read.symbols.Distinct ∧
      ∀ label, read.symbols.get? label = file.symbols.get? label := by
  have hread : SymbolTable.Distinct ⟨entries⟩ := hdistinct.perm hperm
  refine ⟨{ file with symbols := ⟨entries⟩ }, ?_, rfl, rfl, hread, hdistinct.get?_perm hperm⟩
  exact decode_encode hread (by rwa [length_message_perm hperm])

/-- A file without the number of a machine, with a source of more than 127 stray bytes, and with
labels at the addresses where the number of bytes changes; one of them is empty. -/
def strayFile : SymbolFile :=
  { source := List.replicate 200 0xFF
    symbols := ⟨[("A", 127), ([], 128), ([0xC3], 255), ("B", 256), ("A1", 0xFFFFFFFF)]⟩ }

theorem decode_encode_perm_reversed :
    strayFile.symbols.Distinct ∧ strayFile.message.length < numberLimit ∧
      ∃ read, decode (encode { strayFile with symbols := ⟨strayFile.symbols.entries.reverse⟩ }) =
          .ok read ∧
        read.source = List.replicate 200 0xFF ∧ read.mode = 0 ∧ read.symbols.get? [] = some 128 ∧
        read.symbols.get? "A1" = some 0xFFFFFFFF ∧ read.symbols.get? "C" = none := by
  have hdistinct : strayFile.symbols.Distinct := by decide +kernel
  have hlength : strayFile.message.length < numberLimit := by decide +kernel
  obtain ⟨read, hread, hsource, hmode, -, hget⟩ :=
    decode_encode_perm hdistinct hlength (List.reverse_perm strayFile.symbols.entries)
  refine ⟨hdistinct, hlength, read, hread, hsource, hmode, ?_, ?_, ?_⟩
  all_goals
    rw [hget]
    decide +kernel

end SymbolFile

end SicXe
