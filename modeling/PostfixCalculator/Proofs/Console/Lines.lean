import Mathlib
import PostfixCalculator.Console.Lines

/-!
# The lines of a stream

A line ends at the first line feed, so whole lines can be cut off the front of a stream without
changing those that follow.  Taking lines one at a time gives the same lines as cutting them all at
once.  In the bytes of a text a line feed or a carriage return is never part of another character;
hence every line of a text is a text.

## Main definitions

* `WholeLines bytes` — the last line, if there is one, has its end.
* `encode cs` — the bytes of characters.

## Main results

* `streamLines_append` — the lines of whole lines and of what follows them.
* `streamLines_eq` — the lines of a stream, from the one that is taken first.
* `exists_text_of_mem_streamLines` — **every line of a text is a text.**
-/

namespace PostfixCalculator.Console

/-- The stream is empty, or its last line has its end. -/
def WholeLines (bytes : List UInt8) : Prop := bytes = [] ∨ bytes.getLast? = some lineFeed

/-! ### Cutting at line feeds -/

/-- Bytes other than line feeds all belong to the line under construction. -/
theorem lineBytesAfter_append {line : List UInt8} (h : lineFeed ∉ line) (rest : List UInt8) :
    ∀ read, lineBytesAfter read (line ++ rest) = lineBytesAfter (line.reverse ++ read) rest := by
  induction line with
  | nil => intro read; rfl
  | cons b line ih =>
    intro read
    rw [List.mem_cons, not_or] at h
    rw [List.cons_append, lineBytesAfter, if_neg (Ne.symm h.1), ih h.2, List.reverse_cons,
      List.append_assoc]
    rfl

/-- Of a line that a line feed ends, a carriage return is dropped. -/
theorem closeLine_reverse (line : List UInt8) : closeLine line.reverse =
    if line.getLast? = some carriageReturn then line.dropLast else line := by
  rcases List.eq_nil_or_concat' line with rfl | ⟨front, b, rfl⟩
  · rfl
  · rw [List.reverse_append, List.reverse_singleton, List.singleton_append, closeLine,
      List.getLast?_concat, List.dropLast_concat]
    by_cases hb : b = carriageReturn <;> simp [hb]

theorem withoutEnd_append_lineFeed (line : List UInt8) :
    withoutEnd (line ++ [lineFeed]) = closeLine line.reverse := by
  rw [withoutEnd, if_pos List.getLast?_concat, List.dropLast_concat, closeLine_reverse]

/-- A line and what follows its end. -/
theorem streamLines_append_lineFeed {line : List UInt8} (h : lineFeed ∉ line)
    (rest : List UInt8) : streamLines (line ++ lineFeed :: rest) =
      textOf? (withoutEnd (line ++ [lineFeed])) :: streamLines rest := by
  rw [streamLines, lineBytes, lineBytesAfter_append h, lineBytesAfter, if_pos rfl,
    List.append_nil, withoutEnd_append_lineFeed]
  rfl

/-- A last line that lacks its end. -/
theorem streamLines_of_not_mem {line : List UInt8} (h : lineFeed ∉ line) (hne : line ≠ []) :
    streamLines line = [textOf? line] := by
  have hread := lineBytesAfter_append h [] []
  rw [List.append_nil, List.append_nil] at hread
  rw [streamLines, lineBytes, hread, lineBytesAfter,
    if_neg (mt List.reverse_eq_nil_iff.mp hne), List.reverse_reverse]
  rfl

/-- **The lines of whole lines and of what follows them.** -/
theorem streamLines_append {bytes : List UInt8} (h : WholeLines bytes) (bytes' : List UInt8) :
    streamLines (bytes ++ bytes') = streamLines bytes ++ streamLines bytes' := by
  -- the line feed at the end leaves no line under construction, however much was read before it
  have key : ∀ bytes read, bytes.getLast? = some lineFeed →
      lineBytesAfter read (bytes ++ bytes') = lineBytesAfter read bytes ++ lineBytes bytes' := by
    intro bytes
    induction bytes with
    | nil => intro read hlast; cases hlast
    | cons b bytes ih =>
      intro read hlast
      rw [List.cons_append, lineBytesAfter, lineBytesAfter]
      rcases List.eq_nil_or_concat' bytes with rfl | ⟨front, b', rfl⟩
      · obtain rfl : b = lineFeed := by simpa using hlast
        rw [if_pos rfl, if_pos rfl]
        rfl
      · have hlast' : (front ++ [b']).getLast? = some lineFeed := by
          rw [← List.cons_append, List.getLast?_concat] at hlast
          rw [List.getLast?_concat, hlast]
        split
        · rw [ih [] hlast', List.cons_append]
        · exact ih (b :: read) hlast'
  rcases h with rfl | hlast
  · rfl
  · rw [streamLines, streamLines, streamLines, lineBytes, key bytes [] hlast, List.map_append]
    rfl

/-! ### Taking one line -/

/-- A stream that has a line feed is a first line, its end and the rest. -/
theorem nextLine?_append_lineFeed {line : List UInt8} (h : lineFeed ∉ line)
    (rest : List UInt8) :
    nextLine? (line ++ lineFeed :: rest) = some (line ++ [lineFeed], rest) := by
  have hline : ∀ b ∈ line, decide (b ≠ lineFeed) = true :=
    fun b hb => decide_eq_true fun heq => h (heq ▸ hb)
  rw [nextLine?, List.dropWhile_append_of_pos hline, List.takeWhile_append_of_pos hline,
    List.dropWhile_cons_of_neg (by simp), List.takeWhile_cons_of_neg (by simp)]
  simp

theorem nextLine?_of_not_mem {line : List UInt8} (h : lineFeed ∉ line) (hne : line ≠ []) :
    nextLine? line = some (line, []) := by
  have hline : ∀ b ∈ line, decide (b ≠ lineFeed) = true :=
    fun b hb => decide_eq_true fun heq => h (heq ▸ hb)
  rw [nextLine?, List.dropWhile_eq_nil_iff.mpr hline]
  exact if_neg hne

/-- A line without a line feed has no end to lose. -/
theorem withoutEnd_of_not_mem {line : List UInt8} (h : lineFeed ∉ line) :
    withoutEnd line = line :=
  if_neg fun hlast => h (List.mem_of_getLast? hlast)

/-- **The lines of a stream, from its first one on.** -/
theorem streamLines_eq (bytes : List UInt8) :
    streamLines bytes = match nextLine? bytes with
      | some (line, rest) => textOf? (withoutEnd line) :: streamLines rest
      | none => [] := by
  by_cases hmem : lineFeed ∈ bytes
  · obtain ⟨line, rest, rfl, hline⟩ := List.eq_append_cons_of_mem hmem
    rw [nextLine?_append_lineFeed hline, streamLines_append_lineFeed hline]
  · by_cases hne : bytes = []
    · rw [hne]
      rfl
    · rw [nextLine?_of_not_mem hmem hne, streamLines_of_not_mem hmem hne]
      dsimp only
      rw [withoutEnd_of_not_mem hmem]
      rfl

/-! ### The bytes of a text -/

/-- The bytes of characters. -/
def encode (cs : List Char) : List UInt8 := cs.flatMap String.utf8EncodeChar

theorem encode_nil : encode [] = [] := rfl

theorem encode_singleton (c : Char) : encode [c] = String.utf8EncodeChar c := List.append_nil _

theorem encode_cons (c : Char) (cs : List Char) :
    encode (c :: cs) = String.utf8EncodeChar c ++ encode cs := rfl

theorem encode_append (cs cs' : List Char) : encode (cs ++ cs') = encode cs ++ encode cs' :=
  List.flatMap_append

theorem toList_toUTF8 (text : String) : text.toUTF8.data.toList = encode text.toList := by
  rw [String.toUTF8_eq_toByteArray, ← String.utf8Encode_toList]
  exact List.toList_data_toByteArray

/-- The bytes of characters are read as the text of these. -/
theorem textOf?_encode (cs : List Char) : textOf? (encode cs) = some (String.ofList cs) := by
  have hbytes : (⟨(encode cs).toArray⟩ : ByteArray) = cs.utf8Encode :=
    ByteArray.ext List.data_toByteArray.symm
  rw [textOf?, hbytes, String.fromUTF8?, dif_pos ByteArray.isValidUTF8_utf8Encode]
  rfl

/-- A byte below 128 stands for a character on its own. -/
theorem eq_of_mem_utf8EncodeChar {c : Char} {b : UInt8} (hlt : b.toNat < 128)
    (hb : b ∈ String.utf8EncodeChar c) : c.toNat = b.toNat ∧ String.utf8EncodeChar c = [b] := by
  have hbig : ∀ n, 128 ≤ n → n < 256 → b ≠ UInt8.ofNat n := by
    rintro n hge hn rfl
    rw [UInt8.toNat_ofNat'] at hlt
    omega
  rw [String.utf8EncodeChar] at hb ⊢
  split at hb
  · next hc =>
    rw [if_pos hc]
    obtain rfl := List.mem_singleton.mp hb
    refine ⟨?_, rfl⟩
    rw [UInt8.toNat_ofNat']
    show c.val.toNat = c.val.toNat % 2 ^ 8
    omega
  · -- all bytes of the longer forms are 128 or more
    exfalso
    split at hb
    · simp only [List.mem_cons, List.not_mem_nil, or_false] at hb
      rcases hb with hb | hb <;> exact hbig _ (by omega) (by omega) hb
    · split at hb
      · simp only [List.mem_cons, List.not_mem_nil, or_false] at hb
        rcases hb with hb | hb | hb <;> exact hbig _ (by omega) (by omega) hb
      · simp only [List.mem_cons, List.not_mem_nil, or_false] at hb
        rcases hb with hb | hb | hb | hb <;> exact hbig _ (by omega) (by omega) hb

theorem lineFeed_not_mem_utf8EncodeChar {c : Char} (hc : c ≠ '\n') :
    lineFeed ∉ String.utf8EncodeChar c := by
  intro hmem
  apply hc
  rw [← Char.ofNat_toNat c, (eq_of_mem_utf8EncodeChar (by decide) hmem).1]
  rfl

/-- The bytes of characters are still those of characters when a line has been ended. -/
theorem exists_closeLine_encode (cs : List Char) :
    ∃ cs', closeLine (encode cs).reverse = encode cs' := by
  rw [closeLine_reverse]
  split
  · next hlast =>
    -- the carriage return is a character on its own, the last one
    rcases List.eq_nil_or_concat' cs with rfl | ⟨front, c, rfl⟩
    · cases hlast
    · rw [encode_append, encode_singleton] at hlast ⊢
      rw [List.getLast?_append_of_ne_nil _ String.utf8EncodeChar_ne_nil] at hlast
      have hmem : carriageReturn ∈ String.utf8EncodeChar c := List.mem_of_getLast? hlast
      refine ⟨front, ?_⟩
      rw [(eq_of_mem_utf8EncodeChar (by decide) hmem).2, List.dropLast_concat]
  · exact ⟨cs, rfl⟩

/-- A line of bytes of characters is made of bytes of characters, whatever has been read of it. -/
theorem exists_of_mem_lineBytesAfter {line : List UInt8} : ∀ cs read : List Char,
    line ∈ lineBytesAfter (encode read).reverse (encode cs) → ∃ cs', line = encode cs' := by
  intro cs
  induction cs with
  | nil =>
    intro read hline
    rw [encode_nil, lineBytesAfter] at hline
    split at hline
    · cases hline
    · rw [List.reverse_reverse, List.mem_singleton] at hline
      exact ⟨read, hline⟩
  | cons c cs ih =>
    intro read hline
    rw [encode_cons] at hline
    by_cases hc : c = '\n'
    · have hbytes : String.utf8EncodeChar c = [lineFeed] := by rw [hc]; rfl
      rw [hbytes, List.singleton_append, lineBytesAfter, if_pos rfl, List.mem_cons] at hline
      rcases hline with rfl | hline
      · exact exists_closeLine_encode read
      · exact ih [] hline
    · rw [lineBytesAfter_append (lineFeed_not_mem_utf8EncodeChar hc), ← List.reverse_append,
        show String.utf8EncodeChar c = encode [c] from (List.append_nil _).symm,
        ← encode_append] at hline
      exact ih (read ++ [c]) hline

/-- **Every line of a text is a text.** -/
theorem exists_text_of_mem_streamLines {text : String} {line : Option String}
    (h : line ∈ streamLines text.toUTF8.data.toList) : ∃ text', line = some text' := by
  rw [toList_toUTF8, streamLines] at h
  obtain ⟨bytes, hbytes, rfl⟩ := List.mem_map.mp h
  obtain ⟨cs, rfl⟩ := exists_of_mem_lineBytesAfter text.toList [] hbytes
  exact ⟨_, textOf?_encode cs⟩

end PostfixCalculator.Console
