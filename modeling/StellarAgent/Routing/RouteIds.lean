import StellarAgent.Lib.Escapes
import StellarAgent.Lib.Lines
import StellarAgent.Routing.Discovery

set_option autoImplicit false

/-! # Ids of routes

`canonicalRouteId` of `packages/core/src/routing/discovery.ts` writes the hops of a route with
delimiters that `escapeId` escapes in the identifiers, except for the parentheses around a path;
and the mark of an escape is itself not escaped. `routeIds_faithful_iff` says over which alphabets
routes are still known by their ids.
-/

namespace StellarAgent.Routing

open Lib

/-! ## The escaping -/

def highDigit (byte : UInt8) : Char := (Nat.digitChar (byte.toNat / 16)).toUpper

def lowDigit (byte : UInt8) : Char := (Nat.digitChar (byte.toNat % 16)).toUpper

theorem hexDigit_inj : ∀ m < 16, ∀ n < 16,
    (Nat.digitChar m).toUpper = (Nat.digitChar n).toUpper → m = n := by decide

theorem hexDigit_unreserved : ∀ n < 16, isUnreserved (Nat.digitChar n).toUpper = true ∧
    (Nat.digitChar n).toUpper ≠ '~' ∧ (Nat.digitChar n).toUpper ≠ '(' := by decide

theorem byte_digits (byte : UInt8) : byte.toNat / 16 < 16 ∧ byte.toNat % 16 < 16 := by
  have := byte.toNat_lt
  omega

theorem utf8EncodeChar_prefix {c d : Char}
    (h : (String.utf8EncodeChar c).IsPrefix (String.utf8EncodeChar d)) : c = d := by
  obtain ⟨rest, hrest⟩ := h
  have hbytes : [c].utf8Encode ++ rest.toByteArray = [d].utf8Encode := by
    rw [List.utf8Encode_singleton, List.utf8Encode_singleton, ← hrest, List.toByteArray_append]
  have hdecode := congrArg (fun bytes => ByteArray.utf8DecodeChar? bytes 0) hbytes
  simpa using hdecode

theorem utf8EncodeChar_lead (c : Char) : ∃ byte rest, String.utf8EncodeChar c = byte :: rest ∧
    byte.IsUTF8FirstByte ∧ ∀ b ∈ rest, ¬ b.IsUTF8FirstByte := by
  cases hbytes : String.utf8EncodeChar c with
  | nil =>
      have hlength := String.length_utf8EncodeChar c
      have hpos := c.utf8Size_pos
      rw [hbytes, List.length_nil] at hlength
      omega
  | cons byte rest =>
      have hfirst : ∀ i, (hi : i < (byte :: rest).length) →
          ((byte :: rest)[i].IsUTF8FirstByte ↔ i = 0) := by
        rw [← hbytes]
        exact fun i hi => UInt8.isUTF8FirstByte_getElem_utf8EncodeChar
      refine ⟨byte, rest, rfl, (hfirst 0 (by simp)).mpr rfl, fun b hb hlead => ?_⟩
      obtain ⟨i, hi, rfl⟩ := List.getElem_of_mem hb
      have hzero := (hfirst (i + 1) (by simpa using hi)).mp hlead
      omega

/-- `encodeURIComponent` with `~` for `%` -/
def idEscaping : Escaping Char UInt8 where
  mark := '~'
  keep := isUnreserved
  high := highDigit
  low := lowDigit
  bytes := String.utf8EncodeChar
  isLead := UInt8.IsUTF8FirstByte
  keep_mark := by decide
  keep_high := fun byte => (hexDigit_unreserved _ (byte_digits byte).1).1
  keep_low := fun byte => (hexDigit_unreserved _ (byte_digits byte).2).1
  high_ne_mark := fun byte => (hexDigit_unreserved _ (byte_digits byte).1).2.1
  low_ne_mark := fun byte => (hexDigit_unreserved _ (byte_digits byte).2).2.1
  digits_inj := by
    intro b b' hhigh hlow
    have hdiv := hexDigit_inj _ (byte_digits b).1 _ (byte_digits b').1 hhigh
    have hmod := hexDigit_inj _ (byte_digits b).2 _ (byte_digits b').2 hlow
    exact UInt8.toNat_inj.mp (by omega)
  lead := utf8EncodeChar_lead
  bytes_inj := fun _ _ => utf8EncodeChar_prefix

theorem escapeId_toList (value : String) :
    (escapeId value).toList = idEscaping.escape value.toList := by
  rw [escapeId, String.toList_ofList]
  rfl

section

variable {C : Set Char} {a b : String}

/-- The characters of a text are in the alphabet. -/
def Over (C : Set Char) (text : String) : Prop := ∀ c ∈ text.toList, c ∈ C

theorem escapeId_inj (hC : ¬ idEscaping.Spells C) (ha : Over C a) (hb : Over C b)
    (h : escapeId a = escapeId b) : a = b := by
  have hescape := congrArg String.toList h
  rw [escapeId_toList, escapeId_toList] at hescape
  exact String.toList_inj.mp (Escaping.escape_inj hC ha hb hescape)

/-- An escaped text has none of the delimiters that are escaped. -/
theorem not_mem_escapeId {c : Char} (h : isUnreserved c = false) :
    c ∉ (escapeId a).toList := by
  rw [escapeId_toList]
  intro hmem
  obtain ⟨x, -, hc⟩ := List.mem_flatMap.mp hmem
  have hkeep : isUnreserved c = true := Escaping.keep_of_mem_code hc
  rw [h] at hkeep
  cases hkeep

/-- A parenthesis in an escaped text was there before. -/
theorem open_mem_of_escapeId (h : '(' ∈ (escapeId a).toList) : '(' ∈ a.toList := by
  rw [escapeId_toList] at h
  obtain ⟨x, hx, hc⟩ := List.mem_flatMap.mp h
  by_cases hkeep : isUnreserved x = true
  · rw [Escaping.code_of_keep hkeep, List.mem_singleton] at hc
    rwa [hc]
  · rw [Escaping.code_of_not_keep (Bool.not_eq_true _ ▸ hkeep)] at hc
    obtain ⟨byte, -, hc⟩ := List.mem_flatMap.mp hc
    simp only [Escaping.marked, List.mem_cons, List.not_mem_nil, or_false] at hc
    rcases hc with hc | hc | hc
    · cases hc
    · exact absurd hc.symm (hexDigit_unreserved _ (byte_digits byte).1).2.2
    · exact absurd hc.symm (hexDigit_unreserved _ (byte_digits byte).2).2.2

end

/-! ## The fields of an id -/

/-- The path of a hop as it is written; nothing if there is none -/
def pathChars : List String → List Char
  | [] => []
  | assets => '(' :: ([','].intercalate (assets.map fun asset => (escapeId asset).toList) ++ [')'])

/-- What is written of a hop before its destination -/
def headChars (hop : RouteHop) : List Char :=
  (venueText hop.venue).toList ++
    ':' :: ((escapeId hop.venueId).toList ++ pathChars (hop.path.getD []))

/-- An id as the fields between its `>` -/
def fields (source : String) (hops : List RouteHop) : List (List Char) :=
  (escapeId source).toList ::
    hops.flatMap fun hop => [headChars hop, (escapeId hop.destinationAsset).toList]

section

variable {hop : RouteHop} {hops : List RouteHop}

theorem segmentText_toList : (segmentText hop).toList =
    headChars hop ++ '>' :: (escapeId hop.destinationAsset).toList := by
  unfold segmentText headChars
  cases hop.path.getD [] with
  | nil => simp [pathChars]
  | cons asset assets => simp [pathChars, String.toList_intercalate, Function.comp_def]

theorem canonicalRouteId_fields (first : RouteHop) (rest : List RouteHop) :
    (canonicalRouteId (first :: rest)).toList ++ ['>'] =
      textOf '>' (fields first.sourceAsset (first :: rest)) := by
  have hsegments : ∀ hops : List RouteHop,
      textOf '>' (hops.map fun hop => (segmentText hop).toList) =
        textOf '>' (hops.flatMap fun hop =>
          [headChars hop, (escapeId hop.destinationAsset).toList]) := by
    intro hops
    induction hops with
    | nil => rfl
    | cons hop hops ih =>
        rw [List.map_cons, textOf_cons, ih, segmentText_toList, List.flatMap_cons, textOf_append,
          textOf_cons, textOf_singleton]
        simp
  have hjoined : (">".intercalate ((first :: rest).map segmentText)).toList ++ ['>'] =
      textOf '>' ((first :: rest).map fun hop => (segmentText hop).toList) := by
    rw [String.toList_intercalate, List.map_map]
    exact intercalate_append_sep (by simp)
  rw [canonicalRouteId, String.toList_append, String.toList_append, List.append_assoc, hjoined,
    hsegments, fields, textOf_cons]
  simp

/-! ## Fields read back -/

theorem venueText_free (venue : RouteVenue) :
    '>' ∉ (venueText venue).toList ∧ ':' ∉ (venueText venue).toList := by
  cases venue <;> decide

theorem venueText_inj {venue venue' : RouteVenue}
    (h : (venueText venue).toList = (venueText venue').toList) : venue = venue' := by
  cases venue <;> cases venue' <;> first | rfl | exact absurd h (by decide)

theorem pathChars_free {assets : List String} : '>' ∉ pathChars assets := by
  cases assets with
  | nil => exact List.not_mem_nil
  | cons asset assets =>
      intro h
      rw [pathChars, List.mem_cons, List.mem_append] at h
      · rcases h with h | h | h
        · cases h
        · rcases mem_intercalate_sep h with hsep | ⟨line, hline, hmem⟩
          · cases hsep
          · obtain ⟨text, -, rfl⟩ := List.mem_map.mp hline
            exact not_mem_escapeId (by decide) hmem
        · simp at h
      · simp

theorem headChars_free : '>' ∉ headChars hop := by
  intro h
  rw [headChars, List.mem_append, List.mem_cons, List.mem_append] at h
  rcases h with h | h | h | h
  · exact (venueText_free hop.venue).1 h
  · cases h
  · exact not_mem_escapeId (by decide) h
  · exact pathChars_free h

theorem fields_free {source : String} : ∀ field ∈ fields source hops, '>' ∉ field := by
  intro field hfield
  rcases List.mem_cons.mp hfield with rfl | hfield
  · exact not_mem_escapeId (by decide)
  · obtain ⟨hop, -, hmem⟩ := List.mem_flatMap.mp hfield
    simp only [List.mem_cons, List.not_mem_nil, or_false] at hmem
    rcases hmem with rfl | rfl
    · exact headChars_free
    · exact not_mem_escapeId (by decide)

end

/-! ## Routes read back -/

/-- The identifiers that an id is made of -/
def identifiers (hop : RouteHop) : List String :=
  hop.venueId :: hop.sourceAsset :: hop.destinationAsset :: hop.path.getD []

def OverAll (C : Set Char) (hops : List RouteHop) : Prop :=
  ∀ hop ∈ hops, ∀ text ∈ identifiers hop, Over C text

/-- Venue, venue id, inner path and assets of a hop -/
def shapeOf (hop : RouteHop) : RouteVenue × String × List String × String × String :=
  (hop.venue, hop.venueId, hop.path.getD [], hop.sourceAsset, hop.destinationAsset)

/-- An alphabet over which ids can be read: without the parenthesis that opens a path, and in which
no escape can be spelled -/
def Readable (C : Set Char) : Prop := '(' ∉ C ∧ ¬ idEscaping.Spells C

section

variable {C : Set Char} {hop hop' : RouteHop} {hops hops' : List RouteHop}

theorem map_escapeId_inj (hC : Readable C) {assets assets' : List String}
    (h : ∀ a ∈ assets, Over C a) (h' : ∀ a ∈ assets', Over C a)
    (heq : assets.map (fun a => (escapeId a).toList) = assets'.map fun a => (escapeId a).toList) :
    assets = assets' := by
  induction assets generalizing assets' with
  | nil => exact (List.map_eq_nil_iff.mp heq.symm).symm
  | cons a assets ih =>
      cases assets' with
      | nil => cases heq
      | cons a' assets' =>
          obtain ⟨hhead, htail⟩ := List.cons.inj heq
          have hfirst := escapeId_inj hC.2 (h a List.mem_cons_self) (h' a' List.mem_cons_self)
            (String.toList_inj.mp hhead)
          rw [hfirst, ih (fun b hb => h b (List.mem_cons_of_mem a hb))
            (fun b hb => h' b (List.mem_cons_of_mem a' hb)) htail]

/-- An id that has no parenthesis of its own and the path after it are told apart. -/
theorem venueId_path_inj (hC : Readable C) {venueId venueId' : String}
    {assets assets' : List String} (hid : Over C venueId) (hid' : Over C venueId')
    (h : ∀ a ∈ assets, Over C a) (h' : ∀ a ∈ assets', Over C a)
    (heq : (escapeId venueId).toList ++ pathChars assets =
      (escapeId venueId').toList ++ pathChars assets') :
    venueId = venueId' ∧ assets = assets' := by
  have hfree : ∀ text, Over C text → '(' ∉ (escapeId text).toList :=
    fun text htext hmem => hC.1 (htext _ (open_mem_of_escapeId hmem))
  cases assets with
  | nil =>
      cases assets' with
      | nil =>
          have heq := List.append_cancel_right heq
          exact ⟨escapeId_inj hC.2 hid hid' (String.toList_inj.mp heq), rfl⟩
      | cons a' assets' =>
          rw [pathChars, List.append_nil] at heq
          refine absurd ?_ (hfree venueId hid)
          rw [heq]
          exact List.mem_append_right _ List.mem_cons_self
  | cons a assets =>
      cases assets' with
      | nil =>
          have heq := heq.symm
          rw [pathChars, List.append_nil] at heq
          refine absurd ?_ (hfree venueId' hid')
          rw [heq]
          exact List.mem_append_right _ List.mem_cons_self
      | cons a' assets' =>
          obtain ⟨hvenue, hpath⟩ := append_sep_inj (hfree venueId hid) (hfree venueId' hid') heq
          have hjoined := congrArg (· ++ [',']) (List.append_cancel_right hpath)
          have hescaped : ∀ l : List String,
              ∀ line ∈ l.map (fun b => (escapeId b).toList), ',' ∉ line := by
            intro l line hline
            obtain ⟨b, -, rfl⟩ := List.mem_map.mp hline
            exact not_mem_escapeId (by decide)
          rw [intercalate_append_sep (by simp), intercalate_append_sep (by simp)] at hjoined
          have hassets := textOf_inj (hescaped _) (hescaped _) hjoined
          exact ⟨escapeId_inj hC.2 hid hid' (String.toList_inj.mp hvenue),
            map_escapeId_inj hC h h' hassets⟩

/-- Hops that start with one asset and write the same fields have the same shapes. -/
theorem shapes_of_fields (hC : Readable C) {asset : String} {amount amount' : ℕ}
    (hover : OverAll C hops) (hover' : OverAll C hops') (h : Continuous asset amount hops)
    (h' : Continuous asset amount' hops')
    (heq : (hops.flatMap fun hop => [headChars hop, (escapeId hop.destinationAsset).toList]) =
      hops'.flatMap fun hop => [headChars hop, (escapeId hop.destinationAsset).toList]) :
    hops.map shapeOf = hops'.map shapeOf := by
  induction hops generalizing hops' asset amount amount' with
  | nil =>
      cases hops' with
      | nil => rfl
      | cons hop' hops' => cases heq
  | cons hop hops ih =>
      cases hops' with
      | nil => cases heq
      | cons hop' hops' =>
          have hown := hover hop List.mem_cons_self
          have hown' := hover' hop' List.mem_cons_self
          rw [List.flatMap_cons, List.flatMap_cons] at heq
          simp only [List.cons_append, List.nil_append, List.cons.injEq] at heq
          obtain ⟨hhead, hdestination, hrest⟩ := heq
          obtain ⟨hvenue, hpath⟩ := append_sep_inj (venueText_free hop.venue).2
            (venueText_free hop'.venue).2 hhead
          obtain ⟨hid, hassets⟩ := venueId_path_inj hC (hown _ (by simp [identifiers]))
            (hown' _ (by simp [identifiers])) (fun a ha => hown a (by simp [identifiers, ha]))
            (fun a ha => hown' a (by simp [identifiers, ha])) hpath
          have hdest := escapeId_inj hC.2 (hown _ (by simp [identifiers]))
            (hown' _ (by simp [identifiers])) (String.toList_inj.mp hdestination)
          have hsource : hop.sourceAsset = hop'.sourceAsset := h.1.trans h'.1.symm
          obtain ⟨-, -, -, -, hnext⟩ := h
          obtain ⟨-, -, -, -, hnext'⟩ := h'
          rw [← hdest] at hnext'
          have htail := ih (fun other hother => hover other (List.mem_cons_of_mem hop hother))
            (fun other hother => hover' other (List.mem_cons_of_mem hop' hother)) hnext hnext' hrest
          rw [List.map_cons, List.map_cons, htail, shapeOf, shapeOf, venueText_inj hvenue, hid,
            hassets, hsource, hdest]

end

/-! ## Over which alphabets ids are faithful -/

/-- Of the routes of one request whose identifiers are over the alphabet, no two that differ in
venues, venue ids, paths or assets have the same id. -/
def FaithfulIds (C : Set Char) : Prop :=
  ∀ (request : RouteRequest) (hops hops' : List RouteHop) (maxHops : Number)
    (quote quote' : RouteQuote), normalizeRoute request hops maxHops = .ok quote →
    normalizeRoute request hops' maxHops = .ok quote' → OverAll C hops → OverAll C hops' →
    canonicalRouteId hops = canonicalRouteId hops' → hops.map shapeOf = hops'.map shapeOf

/-- One hop between two assets -/
def oneHop (source destination venueId : String) (path : List String) : RouteHop where
  venue := .amm
  venueId
  sourceAsset := source
  destinationAsset := destination
  sourceAmount := "1"
  expectedOutput := "1"
  feeAmount := "0"
  feeBps := 0
  slippageBps := 0
  reliabilityBps := 10000
  path := some path
  minOutput := none

def oneRequest (source destination : String) : RouteRequest := ⟨source, destination, "1", none, none⟩

theorem oneHop_accepted {venueId : String} (h : isBlank venueId = false) :
    normalizeRoute (oneRequest "~" "~~") [oneHop "~" "~~" venueId []] 3 =
      .ok (quoteOf (oneRequest "~" "~~") [oneHop "~" "~~" venueId []]) := by
  refine normalizeRoute_ok_iff.mpr ⟨?_, rfl⟩
  have hone : IsAmount "1" := ⟨by decide, by decide⟩
  have hvalid : ValidHop (oneHop "~" "~~" venueId []) :=
    { venueId := h
      sourceAsset := by show isBlank "~" = false; decide
      destinationAsset := by show isBlank "~~" = false; decide
      changes := fun heq => absurd (show "~" = "~~" from heq) (by decide)
      feeAmount := by show isCanonical "0" = true; decide
      feeBps := by show Number.isIntegerIn 0 0 10000 = true; decide +kernel
      slippageBps := by show Number.isIntegerIn 0 0 10000 = true; decide +kernel
      reliabilityBps := by show Number.isIntegerIn 10000 0 10000 = true; decide +kernel
      minOutput := fun _ hmin => by cases hmin }
  exact
    { nonempty := by simp
      depth := by show Number.lt 3 (.finite (1 : ℕ)) = false; decide +kernel
      amount := hone
      valid := fun hop hhop => List.mem_singleton.mp hhop ▸ hvalid
      continuous := ⟨rfl, hone, rfl, hone, trivial⟩
      simple := by show ["~", "~~"].Nodup; decide
      reaches := rfl
      allowed := fun _ hallowed => by cases hallowed }

section

variable {C : Set Char}

/-- `(` for the venue and `((` for its path, or the other way round -/
theorem not_faithful_of_open (hopen : '(' ∈ C) : ¬ FaithfulIds C := by
  intro h
  have hover : ∀ venueId path, (∀ text ∈ identifiers (oneHop "(((" "((((" venueId [path]),
      ∀ c ∈ text.toList, c = '(') → OverAll C [oneHop "(((" "((((" venueId [path]] := by
    intro venueId path hall hop hhop text htext c hc
    rw [List.mem_singleton.mp hhop] at htext
    rw [hall text htext c hc]
    exact hopen
  have hfirst : ∀ text ∈ identifiers (oneHop "(((" "((((" "(" ["(("]),
      ∀ c ∈ text.toList, c = '(' := by
    simp [identifiers, oneHop]
  have hsecond : ∀ text ∈ identifiers (oneHop "(((" "((((" "((" ["("]),
      ∀ c ∈ text.toList, c = '(' := by
    simp [identifiers, oneHop]
  have hshapes := h (oneRequest "(((" "((((") [oneHop "(((" "((((" "(" ["(("]]
    [oneHop "(((" "((((" "((" ["("]] 3
    (quoteOf (oneRequest "(((" "((((") [oneHop "(((" "((((" "(" ["(("]])
    (quoteOf (oneRequest "(((" "((((") [oneHop "(((" "((((" "((" ["("]])
    (by decide +kernel) (by decide +kernel)
    (hover _ _ hfirst) (hover _ _ hsecond) (by decide +kernel)
  revert hshapes
  decide +kernel

/-- A venue that is called like a character that is escaped, and one that is called like its
escape -/
theorem not_faithful_of_spells (hspells : idEscaping.Spells C) : ¬ FaithfulIds C := by
  intro h
  obtain ⟨c, hc, hkeep, hcode⟩ := hspells
  obtain ⟨byte, tail, -, hhead⟩ := Escaping.code_head hkeep
  have hmark : '~' ∈ C := hcode '~' (hhead ▸ List.mem_cons_self)
  have hover : ∀ chars : List Char, (∀ x ∈ chars, x ∈ C) →
      OverAll C [oneHop "~" "~~" (String.ofList chars) []] := by
    intro chars hchars hop hhop text htext x hx
    rw [List.mem_singleton.mp hhop] at htext
    have htext : text ∈ [String.ofList chars, "~", "~~"] := htext
    simp only [List.mem_cons, List.not_mem_nil, or_false] at htext
    rcases htext with rfl | rfl | rfl
    · rw [String.toList_ofList] at hx
      exact hchars x hx
    · have hx : x ∈ ['~'] := hx
      rwa [List.mem_singleton.mp hx]
    · have hx : x ∈ ['~', '~'] := hx
      simp only [List.mem_cons, List.not_mem_nil, or_false, or_self] at hx
      rwa [hx]
  have hnonblank : ∀ chars : List Char, isBlank (String.ofList ('~' :: chars)) = false := by
    intro chars
    rw [isBlank, String.toList_ofList, List.all_cons, show isWhitespace '~' = false by decide,
      Bool.false_and]
  have hids : canonicalRouteId [oneHop "~" "~~" (String.ofList ('~' :: [c])) []] =
      canonicalRouteId [oneHop "~" "~~" (String.ofList ('~' :: idEscaping.code c)) []] := by
    have hescaped : escapeId (String.ofList ('~' :: [c])) =
        escapeId (String.ofList ('~' :: idEscaping.code c)) := by
      have hlast : idEscaping.escape [c] = idEscaping.code c := List.append_nil _
      rw [← String.toList_inj, escapeId_toList, escapeId_toList, String.toList_ofList,
        String.toList_ofList, Escaping.escape_cons, hlast, Escaping.escape_cons,
        Escaping.escape_code]
    unfold canonicalRouteId
    simp only [List.map_cons, List.map_nil, segmentText, oneHop, hescaped]
  have hshapes := h (oneRequest "~" "~~") _ _ 3 _ _ (oneHop_accepted (hnonblank [c]))
    (oneHop_accepted (hnonblank (idEscaping.code c)))
    (hover _ (by simpa using ⟨hmark, hc⟩)) (hover _ (by simpa using ⟨hmark, hcode⟩)) hids
  simp only [List.map_cons, List.map_nil, shapeOf, oneHop, List.cons.injEq, Prod.mk.injEq,
    and_true, true_and] at hshapes
  have hchars : [c] = idEscaping.code c := by
    have heq := congrArg String.toList hshapes
    rw [String.toList_ofList, String.toList_ofList] at heq
    exact (List.cons.inj heq).2
  have hkept : idEscaping.keep c = true :=
    Escaping.keep_of_mem_code (hchars ▸ List.mem_singleton_self c)
  rw [hkeep] at hkept
  cases hkept

theorem faithful_of_readable (hC : Readable C) : FaithfulIds C := by
  intro request hops hops' maxHops quote quote' hok hok' hover hover' hids
  obtain ⟨hadmissible, -⟩ := normalizeRoute_ok_iff.mp hok
  obtain ⟨hadmissible', -⟩ := normalizeRoute_ok_iff.mp hok'
  cases hops with
  | nil => exact absurd rfl hadmissible.nonempty
  | cons first rest =>
      cases hops' with
      | nil => exact absurd rfl hadmissible'.nonempty
      | cons first' rest' =>
          have htext : textOf '>' (fields first.sourceAsset (first :: rest)) =
              textOf '>' (fields first'.sourceAsset (first' :: rest')) := by
            rw [← canonicalRouteId_fields, ← canonicalRouteId_fields, hids]
          have hfields := textOf_inj fields_free fields_free htext
          exact shapes_of_fields hC hover hover' hadmissible.continuous hadmissible'.continuous
            (List.cons.inj hfields).2

end

/-- **Normalisation is sound, and routes over an alphabet are known by their ids exactly if it has
no opening parenthesis and can spell no escape of its own.** -/
theorem routeIds_faithful_iff (C : Set Char) :
    ((∀ (request : RouteRequest) (hops : List RouteHop) (maxHops : Number) (quote : RouteQuote),
        normalizeRoute request hops maxHops = .ok quote → Admissible request hops maxHops) ∧
      FaithfulIds C) ↔ Readable C := by
  constructor
  · rintro ⟨-, h⟩
    exact ⟨fun hopen => not_faithful_of_open hopen h, fun hspells => not_faithful_of_spells hspells h⟩
  · intro hC
    exact ⟨fun request hops maxHops quote hok => (normalizeRoute_ok_iff.mp hok).1,
      faithful_of_readable hC⟩

/-- A venue whose id ends in parentheses reads like one with a path. -/
theorem two_routes_one_id :
    ¬ ∀ (request : RouteRequest) (hops hops' : List RouteHop) (maxHops : Number)
      (quote quote' : RouteQuote), normalizeRoute request hops maxHops = .ok quote →
      normalizeRoute request hops' maxHops = .ok quote' →
      canonicalRouteId hops = canonicalRouteId hops' → hops.map shapeOf = hops'.map shapeOf := by
  intro h
  have hshapes := h (oneRequest "XLM" "USDC") [oneHop "XLM" "USDC" "pool" ["AQUA"]]
    [oneHop "XLM" "USDC" "pool(AQUA)" []] 3
    (quoteOf (oneRequest "XLM" "USDC") [oneHop "XLM" "USDC" "pool" ["AQUA"]])
    (quoteOf (oneRequest "XLM" "USDC") [oneHop "XLM" "USDC" "pool(AQUA)" []])
    (by decide +kernel) (by decide +kernel) (by decide +kernel)
  revert hshapes
  decide +kernel

end StellarAgent.Routing
