import HttpRoutes.Text.Lines
import Mathlib.Data.List.Basic

/-!
# The lines of an input

* `encode cs` : the bytes of characters in UTF-8 (`decode?_eq_some_iff`);
* `encode_eq_append_cons` : an ASCII byte is a character of its own, so that UTF-8 can be cut there;
* `Lines bytes lines` : what the lines of bytes are (`lines_iff`);
* `Lines.append` : behind a line feed new lines begin;
* `Lines.exists_encode` : the lines of UTF-8 are UTF-8.
-/

namespace HttpRoutes.Text

/-! ## UTF-8 -/

/-- The bytes of characters in UTF-8. -/
def encode (cs : List Char) : List UInt8 :=
  cs.flatMap String.utf8EncodeChar

theorem toByteArray_eq_iff {bytes : List UInt8} {text : String} :
    text.toByteArray = ⟨bytes.toArray⟩ ↔ bytes = encode text.toList := by
  rw [← String.utf8Encode_toList, List.utf8Encode, ← encode]
  constructor
  · intro h
    simpa using (congrArg (fun b => b.data.toList) h).symm
  · rintro rfl
    apply ByteArray.ext
    simp

/-- Bytes are read as the text whose bytes they are. -/
theorem decode?_eq_some_iff {bytes : List UInt8} {text : String} :
    decode? bytes = some text ↔ bytes = encode text.toList := by
  rw [← toByteArray_eq_iff, decode?, String.fromUTF8?]
  constructor
  · intro h
    split at h
    · rw [← Option.some.inj h]
      rfl
    · cases h
  · intro h
    have hvalid := text.isValidUTF8
    rw [h] at hvalid
    rw [dif_pos hvalid]
    exact congrArg some (String.toByteArray_inj.mp h.symm)

theorem decode?_encode (cs : List Char) : decode? (encode cs) = some (String.ofList cs) :=
  decode?_eq_some_iff.mpr (by rw [String.toList_ofList])

theorem isSome_decode?_iff {bytes : List UInt8} :
    (decode? bytes).isSome ↔ ∃ cs, bytes = encode cs := by
  rw [Option.isSome_iff_exists]
  constructor
  · rintro ⟨text, htext⟩
    exact ⟨text.toList, decode?_eq_some_iff.mp htext⟩
  · rintro ⟨cs, rfl⟩
    exact ⟨_, decode?_encode cs⟩

theorem encode_cons (c : Char) (cs : List Char) :
    encode (c :: cs) = String.utf8EncodeChar c ++ encode cs := rfl

/-- A byte below 128 occurs in no character but the one that it is. -/
theorem utf8EncodeChar_eq_of_mem {b : UInt8} (hb : b.toNat < 0x80) {c : Char}
    (h : b ∈ String.utf8EncodeChar c) : String.utf8EncodeChar c = [b] := by
  unfold String.utf8EncodeChar at h ⊢
  have hlarge : ∀ n, 0x80 ≤ n → n < 0x100 → b ≠ UInt8.ofNat n := by
    rintro n hlow hhigh rfl
    rw [UInt8.toNat_ofNat_of_lt' hhigh] at hb
    omega
  dsimp only at h ⊢
  split_ifs at h ⊢
  · rw [List.mem_singleton.mp h]
  all_goals
    simp only [List.mem_cons, List.not_mem_nil, or_false] at h
    exfalso
  · rcases h with h | h <;> exact hlarge _ (by omega) (by omega) h
  · rcases h with h | h | h <;> exact hlarge _ (by omega) (by omega) h
  · rcases h with h | h | h | h <;> exact hlarge _ (by omega) (by omega) h

/-- An ASCII byte stands for a character, so what is in front of it and what is behind it are
characters. -/
theorem encode_eq_append_cons {b : UInt8} (hb : b.toNat < 0x80) {cs : List Char}
    {before after : List UInt8} (h : encode cs = before ++ b :: after) :
    ∃ first c second, cs = first ++ c :: second ∧ String.utf8EncodeChar c = [b] ∧
      before = encode first ∧ after = encode second := by
  induction cs generalizing before with
  | nil => simp [encode] at h
  | cons d cs ih =>
    rw [encode_cons] at h
    rcases List.append_eq_append_iff.mp h with ⟨rest, rfl, hrest⟩ | ⟨rest, hd, hrest⟩
    · obtain ⟨first, c, second, rfl, hc, rfl, rfl⟩ := ih hrest
      exact ⟨d :: first, c, second, rfl, hc, rfl, rfl⟩
    · cases rest with
      | nil =>
        obtain ⟨first, c, second, rfl, hc, hfirst, rfl⟩ := @ih [] hrest.symm
        refine ⟨d :: first, c, second, rfl, hc, ?_, rfl⟩
        rw [encode_cons, hd, ← hfirst, List.append_nil, List.append_nil]
      | cons b' rest =>
        obtain ⟨rfl, hafter⟩ := List.cons.inj hrest
        have hmem : b ∈ String.utf8EncodeChar d := by
          rw [hd]
          exact List.mem_append_right _ List.mem_cons_self
        have hsingle := utf8EncodeChar_eq_of_mem hb hmem
        obtain ⟨rfl, rfl⟩ : before = [] ∧ rest = [] := by
          have hlength := congrArg List.length (hsingle.symm.trans hd)
          simp only [List.length_append, List.length_cons, List.length_nil] at hlength
          rw [← List.length_eq_zero_iff, ← List.length_eq_zero_iff]
          omega
        exact ⟨[], d, cs, rfl, hsingle, rfl, hafter⟩

/-! ## Lines -/

/-- `Lines bytes lines`: the lines of `bytes`, without what ends them, are `lines`. -/
inductive Lines : List UInt8 → List (List UInt8) → Prop
  | nil : Lines [] []
  /-- The end of the bytes ends a line. -/
  | last {line : List UInt8} (hne : line ≠ []) (h : lineFeed ∉ line) : Lines line [line]
  | feed {line rest : List UInt8} {lines : List (List UInt8)} (h : lineFeed ∉ line)
    (hreturn : line.getLast? ≠ some carriageReturn) (hrest : Lines rest lines) :
    Lines (line ++ lineFeed :: rest) (line :: lines)
  | returnFeed {line rest : List UInt8} {lines : List (List UInt8)} (h : lineFeed ∉ line)
    (hrest : Lines rest lines) :
    Lines (line ++ carriageReturn :: lineFeed :: rest) (line :: lines)

theorem byteLines_of_notMem {line : List UInt8} (h : lineFeed ∉ line) :
    byteLines line = [line].filter (!·.isEmpty) := by
  rw [byteLines, List.splitOn_eq_singleton h]
  rfl

theorem byteLines_append_cons {line : List UInt8} (h : lineFeed ∉ line) (rest : List UInt8) :
    byteLines (line ++ lineFeed :: rest) = dropReturn line :: byteLines rest := by
  have hne : rest.splitOn lineFeed ≠ [] := List.splitOn_ne_nil lineFeed rest
  simp only [byteLines, List.splitOn_append_cons_self_of_not_mem h,
    List.dropLast_cons_of_ne_nil hne, List.getLast?_cons_of_ne_nil hne, List.map_cons,
    List.cons_append]

theorem Lines.byteLines_eq {bytes : List UInt8} {lines : List (List UInt8)}
    (h : Lines bytes lines) : byteLines bytes = lines := by
  induction h with
  | nil => rfl
  | last hne h =>
    rw [byteLines_of_notMem h]
    simp [hne]
  | feed h hreturn _ ih => rw [byteLines_append_cons h, ih, dropReturn, if_neg hreturn]
  | @returnFeed line rest lines h _ ih =>
    have hline : lineFeed ∉ line ++ [carriageReturn] := by
      rw [List.mem_append, not_or]
      exact ⟨h, by decide⟩
    have hsplit : line ++ carriageReturn :: lineFeed :: rest =
        (line ++ [carriageReturn]) ++ lineFeed :: rest := by simp
    rw [hsplit, byteLines_append_cons hline, ih, dropReturn, List.getLast?_concat, if_pos rfl,
      List.dropLast_concat]

/-- All bytes have lines: those in front of the first line feed are one, and those behind it are
fewer. -/
theorem lines_byteLines (bytes : List UInt8) : Lines bytes (byteLines bytes) := by
  by_cases hfeed : lineFeed ∈ bytes
  · obtain ⟨line, rest, hbytes, hline⟩ := List.eq_append_cons_of_mem hfeed
    have hshorter : rest.length < bytes.length := by
      rw [hbytes, List.length_append, List.length_cons]
      omega
    have hrest := lines_byteLines rest
    rw [hbytes, byteLines_append_cons hline, dropReturn]
    split
    · next hreturn =>
      obtain ⟨line, rfl⟩ := List.getLast?_eq_some_iff.mp hreturn
      rw [List.dropLast_concat, List.append_assoc]
      exact .returnFeed (fun h => hline (List.mem_append_left _ h)) hrest
    · next hreturn => exact .feed hline hreturn hrest
  · rw [byteLines_of_notMem hfeed]
    by_cases hne : bytes = []
    · rw [hne]
      exact .nil
    · simp [hne, Lines.last hne hfeed]
termination_by bytes.length

theorem lines_iff {bytes : List UInt8} {lines : List (List UInt8)} :
    Lines bytes lines ↔ byteLines bytes = lines := by
  constructor
  · exact Lines.byteLines_eq
  · rintro rfl
    exact lines_byteLines bytes

example : byteLines (encode "GET /a\r\n\nGET /b\r".toList) =
    ["GET /a", "", "GET /b\r"].map fun line => encode line.toList := by
  decide

namespace Lines

/-- Behind a line feed new lines begin. -/
theorem append {a b : List UInt8} {as bs : List (List UInt8)} (ha : Lines a as)
    (hfeed : ∀ byte ∈ a.getLast?, byte = lineFeed) (hb : Lines b bs) :
    Lines (a ++ b) (as ++ bs) := by
  induction ha with
  | nil => exact hb
  | @last line hne h =>
    have hlast := List.getLast?_eq_some_getLast hne
    exact absurd (hfeed _ hlast ▸ List.getLast_mem hne) h
  | feed h hreturn _ ih =>
    rw [List.append_assoc, List.cons_append, List.cons_append]
    refine .feed h hreturn (ih fun byte hbyte => hfeed byte ?_)
    exact List.mem_getLast?_append_of_mem_getLast? (List.mem_getLast?_cons hbyte)
  | returnFeed h _ ih =>
    rw [List.append_assoc, List.cons_append, List.cons_append, List.cons_append]
    refine .returnFeed h (ih fun byte hbyte => hfeed byte ?_)
    exact List.mem_getLast?_append_of_mem_getLast?
      (List.mem_getLast?_cons (List.mem_getLast?_cons hbyte))

/-- The lines of UTF-8 are UTF-8: what ends them are characters. -/
theorem exists_encode {bytes : List UInt8} {lines : List (List UInt8)} (h : Lines bytes lines)
    {cs : List Char} (hbytes : bytes = encode cs) :
    ∀ line ∈ lines, ∃ text, line = encode text := by
  induction h generalizing cs with
  | nil => exact fun _ hline => nomatch hline
  | last _ _ => exact List.forall_mem_singleton.mpr ⟨cs, hbytes⟩
  | feed _ _ _ ih =>
    obtain ⟨first, -, second, -, -, hfirst, hsecond⟩ :=
      encode_eq_append_cons (by decide) hbytes.symm
    exact List.forall_mem_cons.mpr ⟨⟨first, hfirst⟩, ih hsecond⟩
  | returnFeed _ _ ih =>
    obtain ⟨first, -, second, -, -, hfirst, hsecond⟩ :=
      encode_eq_append_cons (by decide) hbytes.symm
    obtain ⟨-, -, third, -, -, -, hthird⟩ :=
      @encode_eq_append_cons _ (by decide) _ [] _ hsecond.symm
    exact List.forall_mem_cons.mpr ⟨⟨first, hfirst⟩, ih hthird⟩

end Lines

end HttpRoutes.Text
