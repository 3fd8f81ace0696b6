import ImportAtlas.Http.Message
import ImportAtlas.Http.Query
import ImportAtlas.Proofs.Json.Scalar
import ImportAtlas.Proofs.Text.Fields
import ImportAtlas.Proofs.Text.Utf8

/-!
# Writing queries

Any values can be asked for: with each of its bytes behind a percent sign, a value goes into a query
and is read from it again.
-/

namespace ImportAtlas.Http

open Text
open Json (hexValue? hexValue?_digitChar)

variable {c : Char} {s : String} {bs : List Nat} {fs : List (String × String)}

/-! ## Fields -/

def encodeByte (b : Nat) : List Char := ['%', Nat.digitChar (b / 16), Nat.digitChar (b % 16)]

/-- A text with each of its bytes as a percent sign and two hexadecimal digits. -/
def encodeField (s : String) : String := String.ofList ((bytesOf s).flatMap encodeByte)

theorem plain_digitChar : ∀ k < 16, (Nat.digitChar k).toNat < 0x80 ∧ Nat.digitChar k ≠ '&' ∧
    Nat.digitChar k ≠ '=' ∧ Nat.digitChar k ≠ '#' := by decide

theorem lt_of_mem_bytesOf {b : Nat} (hb : b ∈ bytesOf s) : b < 256 := by
  obtain ⟨byte, _, rfl⟩ := List.mem_map.mp hb
  exact byte.toNat_lt

theorem plain_of_mem_encodeField (hc : c ∈ (encodeField s).toList) :
    c.toNat < 0x80 ∧ c ≠ '&' ∧ c ≠ '=' ∧ c ≠ '#' := by
  rw [encodeField, String.toList_ofList, List.mem_flatMap] at hc
  obtain ⟨b, hb, hc⟩ := hc
  have hbyte := lt_of_mem_bytesOf hb
  simp only [encodeByte, List.mem_cons, List.not_mem_nil, or_false] at hc
  rcases hc with rfl | rfl | rfl
  · decide
  · exact plain_digitChar _ (by omega)
  · exact plain_digitChar _ (by omega)

theorem charBytes_of_lt (hc : c.toNat < 0x80) : charBytes c = [c.toNat] := by
  rw [charBytes_eq, if_pos hc]

theorem decodeBytes_encodeByte {b : Nat} (hb : b < 256) (rest : List Nat) :
    decodeBytes ((encodeByte b).flatMap charBytes ++ rest) = b :: decodeBytes rest := by
  have hhigh : b / 16 < 16 := by omega
  have hlow : b % 16 < 16 := by omega
  have hbytes : (encodeByte b).flatMap charBytes ++ rest =
      0x25 :: (Nat.digitChar (b / 16)).toNat :: (Nat.digitChar (b % 16)).toNat :: rest := by
    simp [encodeByte, charBytes_of_lt (plain_digitChar _ hhigh).1,
      charBytes_of_lt (plain_digitChar _ hlow).1, charBytes_of_lt (show '%'.toNat < 0x80 by decide)]
  rw [hbytes, decodeBytes]
  simp only [Char.ofNat_toNat, hexValue?_digitChar hhigh, hexValue?_digitChar hlow]
  congr 1
  omega

theorem decodeBytes_encode (hbs : ∀ b ∈ bs, b < 256) :
    decodeBytes ((bs.flatMap encodeByte).flatMap charBytes) = bs := by
  induction bs with
  | nil => rw [List.flatMap_nil, List.flatMap_nil, decodeBytes]
  | cons b bs ih =>
      obtain ⟨hb, hothers⟩ := List.forall_mem_cons.mp hbs
      rw [List.flatMap_cons, List.flatMap_append, decodeBytes_encodeByte hb, ih hothers]

theorem decodeField_encodeField (s : String) : decodeField (encodeField s) = s := by
  rw [decodeField, bytesOf_eq, encodeField, String.toList_ofList,
    decodeBytes_encode fun b hb => lt_of_mem_bytesOf hb, decodeLossy_bytesOf]

/-! ## Queries -/

def encodePair (f : String × String) : String := encodeField f.1 ++ "=" ++ encodeField f.2

def queryText (fs : List (String × String)) : String := joinFields '&' (fs.map encodePair)

theorem toList_encodePair (f : String × String) :
    (encodePair f).toList = (encodeField f.1).toList ++ '=' :: (encodeField f.2).toList := by
  simp [encodePair]

theorem decode_encodePair (f : String × String) :
    (decodeField (String.ofList ((encodePair f).toList.takeWhile (· != '='))),
      decodeField (String.ofList (((encodePair f).toList.dropWhile (· != '=')).drop 1))) = f := by
  have hname : ∀ c ∈ (encodeField f.1).toList, (c != '=') = true := by
    intro c hc
    rw [bne_iff_ne]
    exact (plain_of_mem_encodeField hc).2.2.1
  have hequals : ∀ c ∈ ('=' :: (encodeField f.2).toList).head?, (c != '=') = false := by
    rintro _ ⟨⟩
    decide
  rw [toList_encodePair, takeWhile_append_of_head hname hequals,
    dropWhile_append_of_head hname hequals, List.drop_one, List.tail_cons, String.ofList_toList,
    String.ofList_toList, decodeField_encodeField, decodeField_encodeField]

theorem queryPairs_queryText (hfs : fs ≠ []) : queryPairs (queryText fs) = fs := by
  have hpieces : ∀ piece ∈ fs.map encodePair, ∀ c ∈ piece.toList, (c == '&') = false := by
    intro piece hpiece c hc
    obtain ⟨f, _, rfl⟩ := List.mem_map.mp hpiece
    rw [toList_encodePair, List.mem_append, List.mem_cons] at hc
    rw [beq_eq_false_iff_ne]
    rcases hc with hc | rfl | hc
    · exact (plain_of_mem_encodeField hc).2.1
    · decide
    · exact (plain_of_mem_encodeField hc).2.1
  have hfilled : ∀ piece ∈ fs.map encodePair, (piece != "") = true := by
    intro piece hpiece
    obtain ⟨f, _, rfl⟩ := List.mem_map.mp hpiece
    rw [bne_iff_ne, ne_eq, ← String.toList_eq_nil_iff, toList_encodePair]
    simp
  rw [queryPairs, queryText, fields_joinFields (by decide) (by simpa using hfs) hpieces,
    List.filter_eq_self.mpr hfilled, List.map_map]
  simp only [Function.comp_def, decode_encodePair, List.map_id']

/-- What a query is read as, if it gives no field twice. -/
theorem queryFields_queryText (hfs : fs ≠ []) (hdistinct : (fs.map (·.1)).Nodup)
    (names : List String) :
    queryFields names (queryText fs) = .ok fun name => (fs.find? (·.1 == name)).map (·.2) := by
  have honce (name : String) : (fs.filter (·.1 == name)).length ≤ 1 := by
    have hcount := List.nodup_iff_count_le_one.mp hdistinct name
    rwa [List.count, List.countP_map, List.countP_eq_length_filter] at hcount
  have hnone : names.find? (fun name => decide (1 < (fs.filter (·.1 == name)).length)) = none := by
    rw [List.find?_eq_none]
    exact fun name _ => by simpa using honce name
  simp only [queryFields, queryPairs_queryText hfs, hnone]

/-! ## Requests -/

/-- A request for a path with some fields in its query. -/
def getRequest (path : String) (fs : List (String × String)) : Request where
  uri := path ++ "?" ++ queryText fs

/-- A path that no query or fragment is cut off from. -/
structure IsTargetPath (path : String) : Prop where
  absolute : ∃ cs, path.toList = '/' :: cs
  plain : ∀ c ∈ path.toList, c ≠ '?' ∧ c ≠ '#'

variable {path : String}

theorem no_fragment_queryText (fs : List (String × String)) : '#' ∉ (queryText fs).toList := by
  rw [queryText, mem_joinFields (by decide)]
  rintro ⟨piece, hpiece, hc⟩
  obtain ⟨f, _, rfl⟩ := List.mem_map.mp hpiece
  rw [toList_encodePair, List.mem_append, List.mem_cons] at hc
  rcases hc with hc | hc | hc
  · exact (plain_of_mem_encodeField hc).2.2.2 rfl
  · exact absurd hc (by decide)
  · exact (plain_of_mem_encodeField hc).2.2.2 rfl

theorem target_getRequest (h : IsTargetPath path) (fs : List (String × String)) :
    (getRequest path fs).target = path.toList ++ '?' :: (queryText fs).toList := by
  have huri : (getRequest path fs).uri.toList = path.toList ++ '?' :: (queryText fs).toList := by
    simp [getRequest]
  have hplain : ∀ c ∈ (getRequest path fs).uri.toList, (c != '#') = true := by
    intro c hc
    rw [huri, List.mem_append, List.mem_cons] at hc
    rw [bne_iff_ne]
    rcases hc with hc | rfl | hc
    · exact (h.plain c hc).2
    · decide
    · exact fun he => no_fragment_queryText fs (he ▸ hc)
  obtain ⟨cs, hcs⟩ := h.absolute
  rw [Request.target, List.takeWhile_eq_self_iff.mpr hplain, huri, hcs]
  rfl

theorem IsTargetPath.ne_mark (h : IsTargetPath path) : ∀ c ∈ path.toList, (c != '?') = true :=
  fun c hc => bne_iff_ne.mpr (h.plain c hc).1

theorem path_getRequest (h : IsTargetPath path) (fs : List (String × String)) :
    (getRequest path fs).path = path := by
  have htake : (getRequest path fs).target.takeWhile (· != '?') = path.toList := by
    rw [target_getRequest h, takeWhile_append_of_head h.ne_mark (by rintro _ ⟨⟩; decide)]
  obtain ⟨cs, hcs⟩ := h.absolute
  simp only [Request.path, htake, hcs, List.isEmpty_cons, Bool.false_eq_true, if_false]
  rw [← hcs, String.ofList_toList]

theorem query_getRequest (h : IsTargetPath path) (fs : List (String × String)) :
    (getRequest path fs).query = queryText fs := by
  rw [Request.query, target_getRequest h,
    dropWhile_append_of_head h.ne_mark (by rintro _ ⟨⟩; decide), List.drop_one, List.tail_cons,
    String.ofList_toList]

theorem queryFields_getRequest (h : IsTargetPath path) (hfs : fs ≠ [])
    (hdistinct : (fs.map (·.1)).Nodup) (names : List String) :
    queryFields names (getRequest path fs).query =
      .ok fun name => (fs.find? (·.1 == name)).map (·.2) := by
  rw [query_getRequest h, queryFields_queryText hfs hdistinct]

end ImportAtlas.Http
