/-
  RefineId.PairingSets — stored sets of pairing records.
  ════════════════════════════════════════════════════════════════════════════

  A set is a counted list of framed blobs, and one unreadable blob need not cost the user
  the others: blobs of an earlier protocol, and blobs whose engine record is in a format
  the engine does not read, are left out and counted.  Here is which blobs these are, what
  a set is read as, and that nothing shorter or longer than a written set is one.

  Main results:
    • `refused_iff`              : which blobs are dropped from a set.
    • `decodePairingRecords_iff` : what a set is read as.
    • `pairing_codec`            : the whole contract of the stored octets.
-/
import RefineId.PairingCodec

namespace RefineId.Pairing

open Lib

variable {E : Engine}

/-! ## §1. Refused blobs -/

/-- The blob was written for an earlier protocol. -/
def IsEarlierProtocol (blob : Bytes) : Prop :=
  ∃ version rest, firstBlobVersion ≤ version ∧ version ≤ lastEarlierProtocolBlobVersion ∧
    blob = pairingBlobMagic ++ version :: rest

/-- The blob holds an engine record in a format the engine does not read. -/
def IsUnreadFormat (E : Engine) (blob : Bytes) : Prop :=
  ∃ encoded framed rest error, putBytes (E := E) encoded = .ok framed ∧
    E.decodePairRecord encoded = .error error ∧ E.isUnsupportedVersion error = true ∧
    blob = pairingBlobMagic ++ pairingBlobVersion :: keysHeld :: framed ++ rest

/-- The blob is left out of its set. -/
def IsRefused (E : Engine) (blob : Bytes) : Prop :=
  ∃ error : PairingCodecError E, decodePairingRecord blob = .error error ∧
    isRefusedRecord error = true

/-- An error that fails the whole set. -/
def NotRefused (e : PairingCodecError E) : Prop := isRefusedRecord e = false

theorem NotRefused.elim {e : PairingCodecError E} (h : NotRefused e)
    (hrefused : isRefusedRecord e = true) : False := by
  rw [h] at hrefused
  cases hrefused

theorem notRefused_okOr {α : Type} {e e' : PairingCodecError E} {o : Option α} (he : NotRefused e)
    (h : okOr e o = .error e') : NotRefused e' := by
  cases o with
  | none =>
    injection h with h
    rwa [← h]
  | some a => cases h

theorem notRefused_ensure {c : Bool} {e e' : PairingCodecError E} (he : NotRefused e)
    (h : ensure c e = .error e') : NotRefused e' := by
  cases c with
  | false =>
    injection h with h
    rwa [← h]
  | true => cases h

theorem notRefused_truncated : NotRefused (.truncated : PairingCodecError E) := rfl

theorem faults_takeBytes (count : Nat) : Faults (takeBytes count : BlobReader E Bytes) NotRefused :=
  faults_take notRefused_truncated count

theorem faults_takeU8 : Faults (takeU8 : BlobReader E UInt8) NotRefused :=
  faults_next notRefused_truncated

theorem faults_lengthPrefixed : Faults (takeLengthPrefixed : BlobReader E Bytes) NotRefused :=
  ((faults_takeBytes 4).bind fun _ => faults_pure _).bind fun length => faults_takeBytes length

theorem faults_text : Faults (takeText : BlobReader E Text) NotRefused :=
  faults_lengthPrefixed.bind fun _ => faults_lift fun _ h =>
    notRefused_okOr (e := .invalidText) rfl h

theorem faults_boolean : Faults (takeBoolean : BlobReader E Bool) NotRefused := by
  refine faults_takeU8.bind fun tag => faults_lift fun e h => ?_
  unfold booleanFromTag at h
  repeat' split at h
  all_goals first
    | (injection h with h; rw [← h]; rfl)
    | cases h

theorem faults_optionalCertificate :
    Faults (takeOptionalCertificate : BlobReader E (Option E.Certificate)) NotRefused := by
  refine faults_boolean.bind fun present => ?_
  split
  · exact (faults_lengthPrefixed.bind fun _ => faults_lift fun _ h =>
      notRefused_okOr (e := .invalidCertificate) rfl h).bind fun _ => faults_pure _
  · exact faults_pure _

theorem faults_magic (magic : Bytes) : Faults (takeMagic magic : BlobReader E Unit) NotRefused :=
  (faults_takeBytes _).bind fun _ => faults_lift fun _ h => notRefused_ensure (e := .badMagic) rfl h

theorem faults_revokedKeys : Faults (takeRevokedKeys : BlobReader E (Keys E)) NotRefused := by
  have hpairId : Faults (takePairId : BlobReader E (PairId E.pairIdSize)) NotRefused := by
    refine (faults_takeBytes _).bind fun raw => faults_lift fun e h => ?_
    split at h
    · cases h
    · injection h with h
      rw [← h]
      rfl
  exact hpairId.bind fun _ => faults_boolean.bind fun _ => faults_text.bind fun _ =>
    (faults_lift fun _ h => notRefused_okOr (e := .invalidDisplayName) rfl h).bind fun _ =>
      faults_pure _

/-- What follows the keys never makes a blob refused. -/
theorem faults_afterKeys (keys : Keys E) : Faults (takeAfterKeys keys) NotRefused :=
  faults_text.bind fun _ => faults_optionalCertificate.bind fun _ => faults_optionalCertificate.bind
    fun _ => faults_optionalCertificate.bind fun _ => faults_optionalCertificate.bind fun _ =>
      faults_pure _

/-- The one refusal among the keys: an engine record in a format the engine does not read. -/
theorem refused_keys {input : Bytes} :
    (∃ e, (takeKeys : BlobReader E (Keys E)) input = .error e ∧ isRefusedRecord e = true) ↔
      ∃ encoded framed rest error, putBytes (E := E) encoded = .ok framed ∧
        E.decodePairRecord encoded = .error error ∧ E.isUnsupportedVersion error = true ∧
        input = keysHeld :: framed ++ rest := by
  constructor
  · intro hx
    obtain ⟨e, he, hrefused⟩ := hx
    rcases reader_bind_eq_error.mp he with hend | ⟨tag, rest, htag, hkeys⟩
    · exact (NotRefused.elim (faults_takeU8 _ _ hend) hrefused).elim
    obtain ⟨_, rfl, rfl⟩ := (reads_next _ _ _ _).mp htag
    split at hkeys
    next hheld =>
      rcases reader_bind_eq_error.mp hkeys with hend | ⟨encoded, rest', hframe, hrecord⟩
      · exact (NotRefused.elim (faults_lengthPrefixed _ _ hend) hrefused).elim
      obtain ⟨framed, hput, rfl⟩ := (reads_lengthPrefixed _ _ _).mp hframe
      rcases reader_bind_eq_error.mp hrecord with herror | ⟨k, rest'', _, hrole⟩
      · rw [reader_lift_eq_error] at herror
        cases hdecode : E.decodePairRecord encoded with
        | ok k =>
          rw [hdecode] at herror
          cases herror
        | error error =>
          rw [hdecode] at herror
          injection herror with herror
          rw [← herror] at hrefused
          exact ⟨encoded, framed, rest', error, hput, hdecode, hrefused, by rw [hheld]; rfl⟩
      · rcases reader_bind_eq_error.mp hrole with herror | ⟨_, _, _, hpure⟩
        · rw [reader_lift_eq_error] at herror
          exact (NotRefused.elim (notRefused_ensure (e := .notRequester) rfl herror) hrefused).elim
        · cases hpure
    · split at hkeys
      · exact (NotRefused.elim (faults_revokedKeys _ _ hkeys) hrefused).elim
      · rw [reader_lift_eq_error] at hkeys
        injection hkeys with hkeys
        rw [← hkeys] at hrefused
        cases hrefused
  · intro hx
    obtain ⟨encoded, framed, rest, error, hput, hdecode, hunsupported, rfl⟩ := hx
    refine ⟨.pairRecord error, ?_, hunsupported⟩
    refine reader_bind_eq_error.mpr (.inr ⟨keysHeld, framed ++ rest, rfl, ?_⟩)
    rw [if_pos rfl]
    have hframe := (reads_lengthPrefixed (E := E) (framed ++ rest) encoded rest).mpr ⟨framed, hput, rfl⟩
    refine reader_bind_eq_error.mpr (.inr ⟨encoded, rest, hframe, ?_⟩)
    refine reader_bind_eq_error.mpr (.inl (reader_lift_eq_error.mpr ?_))
    rw [hdecode]
    rfl

/-- **Which blobs are refused**: those of an earlier protocol, and those whose engine record
    is in a format the engine does not read. -/
theorem refused_iff {blob : Bytes} :
    IsRefused E blob ↔ IsEarlierProtocol blob ∨ IsUnreadFormat E blob := by
  constructor
  · intro hx
    obtain ⟨e, he, hrefused⟩ := hx
    rcases reader_whole_eq_error.mp he with hread | ⟨_, _, _, _, rfl⟩
    · rcases reader_bind_eq_error.mp hread with hend | ⟨_, rest, hmagic, hversion⟩
      · exact (NotRefused.elim (faults_magic _ _ _ hend) hrefused).elim
      obtain ⟨_, rfl, rfl⟩ := (reads_magic _ _ _ _).mp hmagic
      rcases reader_bind_eq_error.mp hversion with hcheck | ⟨_, rest', hnine, hkeys⟩
      · -- the revision
        rcases reader_bind_eq_error.mp hcheck with hend | ⟨version, rest', hbyte, hcheck'⟩
        · exact (NotRefused.elim (faults_takeU8 _ _ hend) hrefused).elim
        obtain ⟨_, rfl, rfl⟩ := (reads_next _ _ _ _).mp hbyte
        rw [reader_lift_eq_error] at hcheck'
        unfold checkBlobVersion at hcheck'
        split at hcheck'
        · cases hcheck'
        · split at hcheck'
          next hrange => exact .inl ⟨version, rest', hrange.1, hrange.2, rfl⟩
          · injection hcheck' with hcheck'
            rw [← hcheck'] at hrefused
            cases hrefused
      · obtain ⟨_, rfl, rfl⟩ := (reads_blobVersion _ _ _).mp hnine
        rcases reader_bind_eq_error.mp hkeys with herror | ⟨keys, rest'', _, hlast⟩
        · obtain ⟨encoded, framed, rest'', error, hput, hdecode, hunsupported, rfl⟩ :=
            refused_keys.mp ⟨e, herror, hrefused⟩
          exact .inr ⟨encoded, framed, rest'', error, hput, hdecode, hunsupported, by simp⟩
        · exact (NotRefused.elim (faults_afterKeys keys _ _ hlast) hrefused).elim
    · cases hrefused
  · rintro (⟨version, rest, hlow, hhigh, rfl⟩ | ⟨encoded, framed, rest, error, hput, hdecode,
      hunsupported, rfl⟩)
    · refine ⟨.earlierProtocol version, ?_, rfl⟩
      have hmagic := (reads_magic (E := E) pairingBlobMagic (pairingBlobMagic ++ version :: rest) ()
        (version :: rest)).mpr ⟨_, rfl, rfl⟩
      have hcheck : checkBlobVersion (E := E) version = .error (.earlierProtocol version) := by
        unfold checkBlobVersion
        rw [if_neg, if_pos ⟨hlow, hhigh⟩]
        rintro rfl
        exact absurd hhigh (by decide)
      refine reader_whole_eq_error.mpr (.inl (reader_bind_eq_error.mpr (.inr ⟨(), _, hmagic, ?_⟩)))
      refine reader_bind_eq_error.mpr (.inl (reader_bind_eq_error.mpr (.inr ⟨version, rest, rfl, ?_⟩)))
      exact reader_lift_eq_error.mpr hcheck
    · obtain ⟨e, he, hrefused⟩ := refused_keys.mpr
        ⟨encoded, framed, rest, error, hput, hdecode, hunsupported, rfl⟩
      refine ⟨e, ?_, hrefused⟩
      have hmagic := (reads_magic (E := E) pairingBlobMagic
        (pairingBlobMagic ++ pairingBlobVersion :: keysHeld :: framed ++ rest) ()
        (pairingBlobVersion :: keysHeld :: framed ++ rest)).mpr ⟨_, rfl, by simp⟩
      refine reader_whole_eq_error.mpr (.inl (reader_bind_eq_error.mpr (.inr ⟨(), _, hmagic, ?_⟩)))
      refine reader_bind_eq_error.mpr (.inr ⟨(), keysHeld :: framed ++ rest, rfl, ?_⟩)
      exact reader_bind_eq_error.mpr (.inl he)

/-! ## §2. Sets -/

/-- A set of blobs, whoever wrote them, framed as `encode_pairing_records` frames its own. -/
def frameSet (blobs : List Bytes) : Except (PairingCodecError E) Bytes := do
  let count ← putLength blobs.length
  let framed ← blobs.mapM putBytes
  return pairingSetMagic ++ [pairingSetVersion] ++ count ++ framed.flatten

/-- Frames, one after the other. -/
def Framed (E : Engine) : List Bytes → Bytes → Prop
  | [], items => items = []
  | blob :: rest, items => ∃ front back, putBytes (E := E) blob = .ok front ∧ Framed E rest back ∧
      items = front ++ back

theorem framed_iff {blobs : List Bytes} {items : Bytes} : Framed E blobs items ↔
    ∃ framed, blobs.mapM (putBytes (E := E)) = .ok framed ∧ items = framed.flatten := by
  induction blobs generalizing items with
  | nil =>
    constructor
    · intro h
      exact ⟨[], rfl, h⟩
    · intro hx
      obtain ⟨framed, h, rfl⟩ := hx
      injection h with h
      rw [← h]
      rfl
  | cons blob blobs ih =>
    constructor
    · intro hx
      obtain ⟨front, back, hfront, hback, rfl⟩ := hx
      obtain ⟨framed, hframed, rfl⟩ := ih.mp hback
      exact ⟨front :: framed, mapM_cons_eq_ok.mpr ⟨front, framed, hfront, hframed, rfl⟩, rfl⟩
    · intro hx
      obtain ⟨_, hall, rfl⟩ := hx
      obtain ⟨front, framed, hfront, hframed, rfl⟩ := mapM_cons_eq_ok.mp hall
      exact ⟨front, framed.flatten, hfront, ih.mpr ⟨framed, hframed, rfl⟩, rfl⟩

theorem frameSet_eq_ok {blobs : List Bytes} {items : Bytes} : frameSet (E := E) blobs = .ok items ↔
    blobs.length < 2 ^ 32 ∧ ∃ framed, Framed E blobs framed ∧
      items = pairingSetMagic ++ [pairingSetVersion] ++ toBeBytes blobs.length ++ framed := by
  unfold frameSet
  simp only [bind_eq_ok, pure_eq_ok, putLength_eq_ok, framed_iff]
  constructor
  · intro hx
    obtain ⟨_, ⟨hlt, rfl⟩, framed, hframed, rfl⟩ := hx
    exact ⟨hlt, _, ⟨framed, hframed, rfl⟩, rfl⟩
  · intro hx
    obtain ⟨hlt, _, ⟨framed, hframed, rfl⟩, rfl⟩ := hx
    exact ⟨_, ⟨hlt, rfl⟩, framed, hframed, rfl⟩

/-- An encoded set is a framed one. -/
theorem encodePairingRecords_eq_ok {records : List (PairingRecord E)} {items : Bytes} :
    encodePairingRecords records = .ok items ↔
      ∃ blobs, records.mapM encodePairingRecord = .ok blobs ∧ frameSet (E := E) blobs = .ok items := by
  unfold encodePairingRecords frameSet
  simp only [bind_eq_ok, pure_eq_ok, mapM_bind_eq_ok]
  constructor
  · intro hx
    obtain ⟨count, hcount, framed, ⟨blobs, hblobs, hframed⟩, rfl⟩ := hx
    rw [← mapM_length hblobs] at hcount
    exact ⟨blobs, hblobs, count, hcount, framed, hframed, rfl⟩
  · intro hx
    obtain ⟨blobs, hblobs, count, hcount, framed, hframed, rfl⟩ := hx
    rw [mapM_length hblobs] at hcount
    exact ⟨count, hcount, framed, ⟨blobs, hblobs, hframed⟩, rfl⟩

/-- The reader of a framed set that leaves its blobs unread. -/
def takeFrames : Nat → BlobReader E (List Bytes)
  | 0 => return []
  | count + 1 => do
    let blob ← takeLengthPrefixed
    let rest ← takeFrames count
    return blob :: rest

theorem reads_frames (count : Nat) : Reads (takeFrames count : BlobReader E (List Bytes))
    fun blobs items => blobs.length = count ∧ Framed E blobs items := by
  induction count with
  | zero =>
    refine (reads_pure []).congr fun blobs items => ?_
    constructor
    · intro hx
      obtain ⟨rfl, rfl⟩ := hx
      exact ⟨rfl, rfl⟩
    · intro hx
      obtain ⟨hlen, hframed⟩ := hx
      obtain rfl := List.length_eq_zero_iff.mp hlen
      exact ⟨rfl, hframed⟩
  | succ count ih =>
    refine (reads_lengthPrefixed.bind fun blob => ih.bind fun rest =>
      reads_pure (blob :: rest)).congr fun blobs items => ?_
    constructor
    · intro hx
      obtain ⟨blob, front, _, hput, ⟨rest, back, _, ⟨hlen, hback⟩, ⟨rfl, rfl⟩, rfl⟩, rfl⟩ := hx
      rw [List.append_nil]
      exact ⟨by rw [List.length_cons, hlen], front, back, hput, hback, rfl⟩
    · intro hx
      obtain ⟨hlen, hframed⟩ := hx
      cases blobs with
      | nil => cases hlen
      | cons blob rest =>
        obtain ⟨front, back, hput, hback, rfl⟩ := hframed
        exact ⟨blob, front, back, hput, ⟨rest, back, [], ⟨Nat.succ_inj.mp hlen, hback⟩, ⟨rfl, rfl⟩,
          (List.append_nil _).symm⟩, rfl⟩

theorem reads_setVersion :
    Reads (takeSetVersion : BlobReader E Unit) fun _ items => items = [pairingSetVersion] := by
  refine (reads_tag (W := fun _ version => version = pairingSetVersion) fun version u => ?_).congr
    fun u items => ?_
  · rw [ensure_eq_ok, beq_iff_eq]
  · simp

/-- What stands before and between the blobs of a set. -/
theorem reads_frameSet : Reads (do
    takeMagic pairingSetMagic
    takeSetVersion
    let count ← takeLength
    takeFrames count : BlobReader E (List Bytes)) fun blobs items =>
      frameSet (E := E) blobs = .ok items := by
  refine ((reads_magic _).bind fun _ => reads_setVersion.bind fun _ => reads_length.bind fun count =>
    reads_frames count).congr fun blobs items => ?_
  rw [frameSet_eq_ok]
  constructor
  · intro hx
    obtain ⟨_, _, _, rfl, ⟨_, _, _, rfl, ⟨count, _, framed, ⟨hlt, rfl⟩, ⟨rfl, hframed⟩, rfl⟩, rfl⟩, rfl⟩ := hx
    exact ⟨hlt, framed, hframed, by simp⟩
  · intro hx
    obtain ⟨hlt, framed, hframed, rfl⟩ := hx
    exact ⟨(), _, _, rfl, ⟨(), _, _, rfl, ⟨blobs.length, _, framed, ⟨hlt, rfl⟩, ⟨rfl, hframed⟩, rfl⟩,
      rfl⟩, by simp⟩

/-- The loop reads frame by frame what each adds to the set. -/
theorem reads_records (count : Nat) (set : PairingSet E) : Reads (takeRecords count set)
    fun set' items => ∃ blobs, blobs.length = count ∧ Framed E blobs items ∧
      blobs.foldlM PairingSet.read set = .ok set' := by
  induction count generalizing set with
  | zero =>
    refine (reads_pure set).congr fun set' items => ?_
    constructor
    · intro hx
      obtain ⟨rfl, rfl⟩ := hx
      exact ⟨[], rfl, rfl, rfl⟩
    · intro hx
      obtain ⟨blobs, hlen, hframed, hread⟩ := hx
      obtain rfl := List.length_eq_zero_iff.mp hlen
      exact ⟨(pure_eq_ok.mp hread).symm, hframed⟩
  | succ count ih =>
    refine (reads_lengthPrefixed.bind fun blob => reads_lift.bind fun next =>
      ih next).congr fun set' items => ?_
    constructor
    · intro hx
      obtain ⟨blob, front, back, hput, ⟨next, _, _, ⟨hnext, rfl⟩, ⟨blobs, rfl, hback, hread⟩, rfl⟩, rfl⟩ := hx
      refine ⟨blob :: blobs, rfl, ⟨front, back, hput, hback, rfl⟩, ?_⟩
      rw [List.foldlM_cons, bind_eq_ok]
      exact ⟨next, hnext, hread⟩
    · intro hx
      obtain ⟨blobs, hlen, hframed, hread⟩ := hx
      cases blobs with
      | nil => cases hlen
      | cons blob blobs =>
        obtain ⟨front, back, hput, hback, rfl⟩ := hframed
        rw [List.foldlM_cons, bind_eq_ok] at hread
        obtain ⟨next, hnext, hread⟩ := hread
        exact ⟨blob, front, back, hput, ⟨next, [], back, ⟨hnext, rfl⟩,
          ⟨blobs, Nat.succ_inj.mp hlen, hback, hread⟩, rfl⟩, rfl⟩

/-- **What the set reader takes.** -/
theorem reads_set : Reads (takeSet : BlobReader E (PairingSet E)) fun set items =>
    ∃ blobs, frameSet (E := E) blobs = .ok items ∧ blobs.foldlM PairingSet.read {} = .ok set := by
  refine ((reads_magic _).bind fun _ => reads_setVersion.bind fun _ => reads_length.bind fun count =>
    reads_records count {}).congr fun set items => ?_
  constructor
  · intro hx
    obtain ⟨_, _, _, rfl, ⟨_, _, _, rfl, ⟨count, _, framed, ⟨hlt, rfl⟩, ⟨blobs, rfl, hframed, hread⟩,
      rfl⟩, rfl⟩, rfl⟩ := hx
    exact ⟨blobs, frameSet_eq_ok.mpr ⟨hlt, framed, hframed, by simp⟩, hread⟩
  · intro hx
    obtain ⟨blobs, hframe, hread⟩ := hx
    obtain ⟨hlt, framed, hframed, rfl⟩ := frameSet_eq_ok.mp hframe
    exact ⟨(), _, _, rfl, ⟨(), _, _, rfl, ⟨blobs.length, _, framed, ⟨hlt, rfl⟩,
      ⟨blobs, rfl, hframed, hread⟩, rfl⟩, rfl⟩, by simp⟩

/-- Whether a blob is left out of its set, computed. -/
def refusesBlob (E : Engine) (blob : Bytes) : Bool :=
  match (decodePairingRecord blob : Except (PairingCodecError E) (PairingRecord E)) with
  | .ok _ => false
  | .error error => isRefusedRecord error

/-- The record of a blob, if it is one. -/
def readable (E : Engine) (blob : Bytes) : Option (PairingRecord E) :=
  (decodePairingRecord blob).toOption

theorem refusesBlob_iff {blob : Bytes} :
    refusesBlob E blob = true ↔ IsEarlierProtocol blob ∨ IsUnreadFormat E blob := by
  rw [← refused_iff]
  unfold refusesBlob IsRefused
  cases decodePairingRecord blob with
  | ok record => simp
  | error error => simp

/-- What the blobs of a set add to it: every readable one in order, every refused one
    counted, and nothing else may stand among them. -/
theorem foldlM_read {blobs : List Bytes} {set set' : PairingSet E} :
    blobs.foldlM PairingSet.read set = .ok set' ↔
      (∀ blob ∈ blobs, (readable E blob).isSome ∨ refusesBlob E blob = true) ∧
      set' = ⟨set.records ++ blobs.filterMap (readable E),
        set.refused + blobs.countP (refusesBlob E)⟩ := by
  induction blobs generalizing set with
  | nil =>
    have hnil : ([] : List Bytes).foldlM PairingSet.read set = .ok set := rfl
    rw [hnil, Except.ok.injEq]
    constructor
    · rintro rfl
      exact ⟨fun blob hblob => absurd hblob List.not_mem_nil, by simp⟩
    · intro hx
      obtain ⟨_, rfl⟩ := hx
      simp
  | cons blob blobs ih =>
    rw [List.foldlM_cons, bind_eq_ok]
    cases hdecode : (decodePairingRecord blob : Except (PairingCodecError E) (PairingRecord E)) with
    | ok record =>
      have hread : set.read blob = .ok { set with records := set.records ++ [record] } := by
        unfold PairingSet.read
        rw [hdecode]
      have hreadable : readable E blob = some record := by
        unfold readable
        rw [hdecode]
        rfl
      have hrefuses : refusesBlob E blob = false := by
        unfold refusesBlob
        rw [hdecode]
      simp [hread, ih, hreadable, hrefuses]
    | error error =>
      have hreadable : readable E blob = none := by
        unfold readable
        rw [hdecode]
        rfl
      have hrefuses : refusesBlob E blob = isRefusedRecord error := by
        unfold refusesBlob
        rw [hdecode]
      have hread : set.read blob = if isRefusedRecord error then
          .ok { set with refused := set.refused + 1 } else .error error := by
        unfold PairingSet.read
        rw [hdecode]
      by_cases hrefused : isRefusedRecord error = true
      · rw [if_pos hrefused] at hread
        simp [hread, ih, hreadable, hrefuses, hrefused, Nat.add_assoc, Nat.add_comm 1]
      · rw [if_neg hrefused] at hread
        simp [hread, hreadable, hrefuses, hrefused]

/-- **What a stored set is read as.** -/
theorem decodePairingRecords_iff {b : Bytes} {set : PairingSet E} :
    decodePairingRecords b = .ok set ↔ (b = [] ∧ set = {}) ∨
      ∃ blobs, frameSet (E := E) blobs = .ok b ∧
        (∀ blob ∈ blobs, (readable E blob).isSome ∨ refusesBlob E blob = true) ∧
        set = ⟨blobs.filterMap (readable E), blobs.countP (refusesBlob E)⟩ := by
  have hset : (takeSet (E := E)).whole .trailingBytes b = .ok set ↔
      ∃ blobs, frameSet (E := E) blobs = .ok b ∧ blobs.foldlM PairingSet.read {} = .ok set :=
    reads_set.complete _
  unfold decodePairingRecords
  by_cases hempty : b = []
  · subst hempty
    rw [if_pos (show ([] : Bytes).isEmpty = true from rfl)]
    constructor
    · intro h
      injection h with h
      exact .inl ⟨rfl, h.symm⟩
    · rintro (⟨_, rfl⟩ | ⟨blobs, hframe, _⟩)
      · rfl
      · obtain ⟨_, framed, _, heq⟩ := frameSet_eq_ok.mp hframe
        cases heq
  · rw [if_neg (by simpa using hempty), hset]
    constructor
    · intro hx
      obtain ⟨blobs, hframe, hread⟩ := hx
      obtain ⟨hall, rfl⟩ := foldlM_read.mp hread
      exact .inr ⟨blobs, hframe, hall, by simp⟩
    · rintro (⟨rfl, _⟩ | ⟨blobs, hframe, hall, rfl⟩)
      · exact absurd rfl hempty
      · exact ⟨blobs, hframe, foldlM_read.mpr ⟨hall, by simp⟩⟩

/-- No framed set begins another octet string that is accepted as a set. -/
theorem accepted_extension {blobs : List Bytes} {b more : Bytes} {set : PairingSet E}
    (hframe : frameSet (E := E) blobs = .ok b) (h : decodePairingRecords (b ++ more) = .ok set) :
    more = [] := by
  rcases decodePairingRecords_iff.mp h with ⟨hnil, _⟩ | ⟨blobs', hframe', _⟩
  · exact (List.append_eq_nil_iff.mp hnil).2
  · exact reads_frameSet.extended hframe hframe'

/-- Nor does one that is accepted begin a framed set, the empty one apart. -/
theorem accepted_truncation {blobs : List Bytes} {b : Bytes} {n : Nat} {set : PairingSet E}
    (hframe : frameSet (E := E) blobs = .ok b) (hn : 0 < n)
    (h : decodePairingRecords (b.take n) = .ok set) : b.length ≤ n := by
  rcases decodePairingRecords_iff.mp h with ⟨hnil, _⟩ | ⟨blobs', hframe', _⟩
  · rw [List.take_eq_nil_iff] at hnil
    rcases hnil with hzero | rfl
    · omega
    · exact Nat.zero_le n
  · exact reads_frameSet.truncated hframe hframe'

/-- What a stored blob is: a requester's record, encoded, or one that is refused. -/
def Stores : PairingRecord E ⊕ Bytes → Bytes → Prop
  | .inl record, blob => record.keys.IsRequester ∧ encodePairingRecord record = .ok blob
  | .inr refused, blob => (IsEarlierProtocol refused ∨ IsUnreadFormat E refused) ∧ refused = blob

section
variable (hE : E.Codec)
include hE

theorem readable_eq_some {blob : Bytes} {record : PairingRecord E} :
    readable E blob = some record ↔
      record.keys.IsRequester ∧ encodePairingRecord record = .ok blob := by
  unfold readable
  rw [toOption_eq_some, decodePairingRecord_iff hE, and_comm]

theorem Stores.reading {entry : PairingRecord E ⊕ Bytes} {blob : Bytes} (h : Stores entry blob) :
    entry.getLeft? = readable E blob ∧ entry.isRight = refusesBlob E blob := by
  cases entry with
  | inl record =>
    have hreadable := (readable_eq_some hE).mpr h
    have hdecode : decodePairingRecord blob = .ok record := toOption_eq_some.mp hreadable
    refine ⟨hreadable.symm, ?_⟩
    unfold refusesBlob
    rw [hdecode]
    rfl
  | inr refused =>
    obtain ⟨hrefused, rfl⟩ := h
    have hrefuses := refusesBlob_iff.mpr hrefused
    obtain ⟨e, hdecode, _⟩ := refused_iff.mpr hrefused
    refine ⟨?_, hrefuses.symm⟩
    unfold readable
    rw [hdecode]
    rfl

theorem stores_reading {entries : List (PairingRecord E ⊕ Bytes)} {blobs : List Bytes}
    (h : List.Forall₂ Stores entries blobs) :
    entries.filterMap Sum.getLeft? = blobs.filterMap (readable E) ∧
      entries.countP Sum.isRight = blobs.countP (refusesBlob E) := by
  induction h with
  | nil => exact ⟨rfl, rfl⟩
  | cons hentry hrest ih =>
    obtain ⟨hleft, hright⟩ := Stores.reading hE hentry
    rw [List.filterMap_cons, List.filterMap_cons, List.countP_cons, List.countP_cons, hleft, hright,
      ih.1, ih.2]
    exact ⟨rfl, rfl⟩

/-- A set is accepted exactly when its blobs are stored entries. -/
theorem exists_stores {blobs : List Bytes} :
    (∀ blob ∈ blobs, (readable E blob).isSome ∨ refusesBlob E blob = true) ↔
      ∃ entries : List (PairingRecord E ⊕ Bytes), List.Forall₂ Stores entries blobs := by
  induction blobs with
  | nil => exact ⟨fun _ => ⟨[], .nil⟩, fun _ blob hblob => absurd hblob List.not_mem_nil⟩
  | cons blob blobs ih =>
    rw [List.forall_mem_cons, ih]
    constructor
    · intro hx
      obtain ⟨hblob, entries, hentries⟩ := hx
      rcases hblob with hsome | hrefuses
      · obtain ⟨record, hrecord⟩ := Option.isSome_iff_exists.mp hsome
        exact ⟨.inl record :: entries, .cons ((readable_eq_some hE).mp hrecord) hentries⟩
      · exact ⟨.inr blob :: entries, .cons ⟨refusesBlob_iff.mp hrefuses, rfl⟩ hentries⟩
    · intro hx
      obtain ⟨_, hall⟩ := hx
      cases hall with
      | cons hentry hentries =>
        rename_i entry entries
        refine ⟨?_, entries, hentries⟩
        obtain ⟨hleft, hright⟩ := Stores.reading hE hentry
        rw [← hleft, ← hright]
        cases entry with
        | inl record => exact .inl rfl
        | inr refused => exact .inr rfl

end

/-! ## §3. The small engine -/

theorem smallRecord_codec (k : SmallRecord) (b : Bytes) :
    k.encode = .ok b ↔ SmallRecord.decode b = .ok k := by
  obtain ⟨octets, hlen, forgotten⟩ := k
  unfold SmallRecord.encode SmallRecord.decode
  cases forgotten with
  | none =>
    constructor
    · intro h
      injection h with h
      subst h
      rw [dif_pos hlen]
    · intro h
      split at h
      · injection h with h
        rw [SmallRecord.mk.injEq] at h
        rw [h.1]
      · split at h <;> cases h
  | some at' =>
    constructor
    · intro h
      dsimp only at h
      split at h
      next hat =>
        injection h with h
        subst h
        have hlong : (octets ++ [UInt8.ofNat at']).length = 19 := by
          rw [List.length_append, hlen]
          rfl
        rw [dif_neg (by omega), dif_pos hlong, Except.ok.injEq, SmallRecord.mk.injEq]
        refine ⟨List.take_left' hlen, ?_⟩
        rw [List.getLast_append_singleton, toNat_ofNat_small hat]
      · cases h
    · intro h
      split at h
      · cases h
      · split at h
        next hlong =>
          injection h with h
          rw [SmallRecord.mk.injEq, Option.some.injEq] at h
          obtain ⟨rfl, rfl⟩ := h
          dsimp only
          have htake : b.take 18 = b.dropLast := by rw [List.dropLast_eq_take, hlong]
          rw [if_pos (UInt8.toNat_lt _), UInt8.ofNat_toNat, htake, List.dropLast_append_getLast]
        · cases h

theorem nonempty_eq_some {α : Type} [DecidableEq α] {l : List α} {x : { l : List α // l ≠ [] }} :
    (if h : l ≠ [] then some ⟨l, h⟩ else none) = some x ↔ x.1 = l := by
  obtain ⟨l', hl'⟩ := x
  constructor
  · intro h
    split at h
    · injection h with h
      exact (Subtype.mk.inj h).symm
    · cases h
  · rintro rfl
    exact dif_pos hl'

theorem smallEngine_codec : smallEngine.Codec where
  pairRecord_iff := smallRecord_codec
  displayName_iff _ _ := nonempty_eq_some
  der_iff _ _ := nonempty_eq_some

/-! ## §4. The whole contract -/

/-- **Stored pairings.**  What is written for a requester's record is read back as that record;
    what is accepted as a record is what is written for it.  Nothing longer than an encoded
    set and nothing shorter but the empty octet string is a set.  A set is accepted exactly
    when it is empty or frames requesters' records and refused blobs; the records come back
    complete and in order, and the others are counted. -/
theorem pairing_codec (hE : E.Codec) :
    (∀ (record : PairingRecord E) blob, record.keys.IsRequester →
      encodePairingRecord record = .ok blob → decodePairingRecord blob = .ok record) ∧
    (∀ blob (record : PairingRecord E), decodePairingRecord blob = .ok record →
      encodePairingRecord record = .ok blob) ∧
    (∀ (records : List (PairingRecord E)) b, encodePairingRecords records = .ok b →
      (∀ n, 0 < n → n < b.length →
        ∃ e : PairingCodecError E, decodePairingRecords (b.take n) = .error e) ∧
      ∀ more, more ≠ [] → ∃ e : PairingCodecError E, decodePairingRecords (b ++ more) = .error e) ∧
    ∀ b (set : PairingSet E), decodePairingRecords b = .ok set ↔ (b = [] ∧ set = {}) ∨
      ∃ (entries : List (PairingRecord E ⊕ Bytes)) (blobs : List Bytes),
        List.Forall₂ Stores entries blobs ∧ frameSet (E := E) blobs = .ok b ∧
        set = ⟨entries.filterMap Sum.getLeft?, entries.countP Sum.isRight⟩ := by
  refine ⟨?_, ?_, ?_, ?_⟩
  · intro record blob hrequester hencode
    exact (decodePairingRecord_iff hE).mpr ⟨hencode, hrequester⟩
  · intro blob record hdecode
    exact ((decodePairingRecord_iff hE).mp hdecode).1
  · intro records b hencode
    obtain ⟨blobs, _, hframe⟩ := encodePairingRecords_eq_ok.mp hencode
    refine ⟨fun n hpos hlt => ?_, fun more hmore => ?_⟩
    · cases hdecode : (decodePairingRecords (b.take n) : Except (PairingCodecError E) _) with
      | error e => exact ⟨e, rfl⟩
      | ok set =>
        have hle := accepted_truncation hframe hpos hdecode
        omega
    · cases hdecode : (decodePairingRecords (b ++ more) : Except (PairingCodecError E) _) with
      | error e => exact ⟨e, rfl⟩
      | ok set => exact absurd (accepted_extension hframe hdecode) hmore
  · intro b set
    rw [decodePairingRecords_iff]
    refine or_congr_right ?_
    constructor
    · intro hx
      obtain ⟨blobs, hframe, hall, rfl⟩ := hx
      obtain ⟨entries, hentries⟩ := (exists_stores hE).mp hall
      obtain ⟨hrecords, hrefused⟩ := stores_reading hE hentries
      exact ⟨entries, blobs, hentries, hframe, by rw [hrecords, hrefused]⟩
    · intro hx
      obtain ⟨entries, blobs, hentries, hframe, rfl⟩ := hx
      obtain ⟨hrecords, hrefused⟩ := stores_reading hE hentries
      exact ⟨blobs, hframe, (exists_stores hE).mpr ⟨entries, hentries⟩, by rw [hrecords, hrefused]⟩

theorem pairing_codec_small : ∃ blob, encodePairingRecord (smallRecord 1) = .ok blob ∧
    decodePairingRecord blob = .ok (smallRecord 1) :=
  ⟨_, rfl, (pairing_codec smallEngine_codec).1 _ _ rfl rfl⟩

/-- A custodian's record is written and not read back, and the empty beginning of a set is
    read as the empty set. -/
theorem codec_gaps :
    (¬ ∀ (record : PairingRecord smallEngine) blob, encodePairingRecord record = .ok blob →
      decodePairingRecord blob = .ok record) ∧
    ¬ ∀ (records : List (PairingRecord smallEngine)) b n, encodePairingRecords records = .ok b →
      n < b.length → ∃ e : PairingCodecError smallEngine, decodePairingRecords (b.take n) = .error e := by
  constructor
  · intro h
    have hread := h (.new (E := smallEngine) ⟨List.replicate 16 1 ++ [1, 1], rfl, none⟩ []) _ rfl
    cases ((decodePairingRecord_iff smallEngine_codec).mp hread).2
  · intro h
    obtain ⟨e, he⟩ := h [] _ 0 rfl (by decide)
    cases he

end RefineId.Pairing
