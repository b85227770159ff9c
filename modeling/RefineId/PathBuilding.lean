/-
  RefineId.PathBuilding — what other certificates do to a path that is found.
  ════════════════════════════════════════════════════════════════════════════

  `crates/refineid-doc-sign/src/material.rs`: `verify_chain_with` over `find_issuer`.

  `find_issuer` takes the first directly valid issuer, and the climb never goes back: a
  certificate of the right name and key that leads nowhere ends the search.  A path is found
  all the same where the certificate that is taken now is the one that was taken before, or
  leads to an anchor too.

  Main results:
    • `findIssuer_again`         : the search at one link.
    • `undisturbed_of_harmless`  : certificates that are chosen nowhere disturb nothing.
    • `leadsOn_of_offline`       : a climb that asks nothing, and comes to an anchor.
    • `leadsOn_iff_byAddress`    : one climb is enough where addresses answer alike.
    • `runs_undisturbed`         : the climb, by simulation.
    • `verifyChainWith_inserted` : a path is found again.
-/
import RefineId.ChainWalk
import RefineId.Lib.Inserted

namespace RefineId

namespace ChainWalk

variable {E : Externals}
variable {σ Uri : Type} [DecidableEq Uri] (U : UriCrate Uri) (P : EvidenceProvider σ Uri)

/-! ## §1. The links of a path -/

/-- A link of a path below its anchor: the subject, the certificates up to it with the
    subordinate CAs among them, and the issuer that the path names. -/
structure PathLink where
  subject : Certificate
  visited : List Bytes
  below : Nat
  issuer : Bytes

/-- The links of a path, with `visited` and `below` subordinate CAs before it. -/
def pathLinks (E : Externals) (visited : List Bytes) (below : Nat) : List Bytes → List PathLink
  | der :: issuer :: rest =>
    match Certificate.fromDer E der with
    | .error _ => []
    | .ok subject =>
      let below := below + if isSubordinateCa subject then 1 else 0
      ⟨subject, visited ++ [der], below, issuer⟩ ::
        pathLinks E (visited ++ [der]) below (issuer :: rest)
  | _ => []

/-- What the search takes at a link without asking an address: the first directly valid
    issuer among the anchors and the candidates. -/
def chosen (E : Externals) (time : DateTime) (anchors candidates : List Bytes) (link : PathLink) :
    Option Bytes :=
  (anchors ++ candidates).find? (isLocalIssuer E link.subject time link.below anchors)

/-- What an address answers does not depend on what was asked before. -/
def EvidenceProvider.AnswersByAddress (P : EvidenceProvider σ Uri) : Prop :=
  ∀ url s s', (P.fetchIssuer url s).1 = (P.fetchIssuer url s').1

section
variable (E)
variable (time : DateTime) (anchors candidates candidates' : List Bytes)

/-- **A certificate leads on**: from `der`, taken as the issuer of a link, the climb over the
    candidates comes to an anchor, whatever was asked before and whichever of the
    certificates behind it were pushed. -/
def LeadsOn (link : PathLink) (der : Bytes) (path : List Bytes) : Prop :=
  ∀ (collection : Collection) (pushed : List Bytes) (s : σ),
    collection.candidates = candidates ++ pushed → pushed ⊆ link.visited ++ [der] →
    ∃ w, Lib.Runs (verifyTurn E U P time anchors)
      ⟨der, link.visited, link.below, collection, s⟩ (.ok path, w)

/-- **A path is not disturbed** when other candidates stand for those it was found with: at
    every link the search takes what it took before, or a copy of the issuer that it had to
    fetch; or it takes a certificate that leads to an anchor itself.  The last argument is the
    path that comes of it. -/
inductive Undisturbed (path : List Bytes) : List PathLink → List Bytes → Prop where
  | nil : Undisturbed path [] path
  | same {link : PathLink} {links : List PathLink} {path' : List Bytes}
      (h : chosen E time anchors candidates' link = chosen E time anchors candidates link)
      (rest : Undisturbed path links path') : Undisturbed path (link :: links) path'
  -- the address of this link is not asked, so later ones are asked in another state
  | copy {link : PathLink} {links : List PathLink} {path' : List Bytes}
      (h : chosen E time anchors candidates' link = some link.issuer)
      (hlater : P.AnswersByAddress ∨ ∀ later ∈ links, later.issuer ∈ anchors ++ candidates)
      (rest : Undisturbed path links path') : Undisturbed path (link :: links) path'
  | other {link : PathLink} {links : List PathLink} {path' : List Bytes} (der : Bytes)
      (h : chosen E time anchors candidates' link = some der)
      (hleads : LeadsOn E U P time anchors candidates' link der path') :
      Undisturbed path (link :: links) path'

/-- What keeps the answers of a climb that has asked something else: it has not, or it makes
    no difference, or nothing more is asked. -/
def Agrees (links : List PathLink) (s s' : σ) : Prop :=
  s' = s ∨ P.AnswersByAddress ∨ ∀ link ∈ links, link.issuer ∈ anchors ++ candidates

/-- A further certificate behind the candidates `before` is chosen at no link: wherever it is a
    directly valid issuer, so is an anchor or one of `before`. -/
def Harmless (links : List PathLink) (before : List Bytes) (der : Bytes) : Prop :=
  ∀ link ∈ links, isLocalIssuer E link.subject time link.below anchors der = true →
    ∃ earlier ∈ anchors ++ before,
      isLocalIssuer E link.subject time link.below anchors earlier = true

end

/-! ## §2. The search at one link -/

section
variable {time : DateTime} {anchors candidates candidates' : List Bytes}

theorem findIssuer_chosen {link : PathLink} {der : Bytes}
    (h : chosen E time anchors candidates link = some der) (pushed : List Bytes) (s : σ) :
    findIssuer E U P link.subject time link.below anchors (candidates ++ pushed) s =
      (.ok der, s) := by
  have hlocal : (anchors ++ (candidates ++ pushed)).find?
      (isLocalIssuer E link.subject time link.below anchors) = some der := by
    rw [← List.append_assoc, List.find?_append]
    exact congrArg (Option.or · _) h
  unfold findIssuer
  simp only [hlocal]

/-- The search looks at its candidates only for what it may take. -/
theorem findIssuer_fetched {subject : Certificate} {count : Nat} {l l' : List Bytes}
    (h : (anchors ++ l).find? (isLocalIssuer E subject time count anchors) = none)
    (h' : (anchors ++ l').find? (isLocalIssuer E subject time count anchors) = none) (s : σ) :
    findIssuer E U P subject time count anchors l' s =
      findIssuer E U P subject time count anchors l s := by
  unfold findIssuer
  simp only [h, h']

omit [DecidableEq Uri] in
/-- Addresses that answer alike whatever was asked before lead to the same certificate. -/
theorem fetchLoop_byAddress (haddress : P.AnswersByAddress) (subject : Certificate) (count : Nat)
    (urls : List Uri) (failures : List String) (s s' : σ) :
    (fetchLoop E U P subject time count anchors urls failures s').1 =
      (fetchLoop E U P subject time count anchors urls failures s).1 := by
  induction urls generalizing failures s s' with
  | nil => rfl
  | cons url urls ih =>
    have hanswer := haddress url s s'
    unfold fetchLoop
    generalize P.fetchIssuer url s = answer, P.fetchIssuer url s' = answer' at hanswer ⊢
    obtain ⟨result, w⟩ := answer
    obtain ⟨result', w'⟩ := answer'
    obtain rfl : result = result' := hanswer
    cases result with
    | error why => exact ih _ w w'
    | ok der =>
      dsimp only
      split
      · exact ih _ w w'
      · split
        · rfl
        · exact ih _ w w'

theorem findIssuer_byAddress (haddress : P.AnswersByAddress) (subject : Certificate) (count : Nat)
    (l : List Bytes) (s s' : σ) :
    (findIssuer E U P subject time count anchors l s').1 =
      (findIssuer E U P subject time count anchors l s).1 := by
  unfold findIssuer
  split
  · rfl
  · split
    · rfl
    · split
      · rfl
      · exact fetchLoop_byAddress U P haddress subject count _ _ s s'

/-- Nothing local is taken when nothing is chosen and nothing that was pushed would do. -/
theorem search_none {link : PathLink} {pushed : List Bytes}
    (h : chosen E time anchors candidates link = none)
    (hpushed : ∀ der ∈ pushed, isLocalIssuer E link.subject time link.below anchors der = false) :
    (anchors ++ (candidates ++ pushed)).find?
      (isLocalIssuer E link.subject time link.below anchors) = none := by
  rw [← List.append_assoc, List.find?_append, Option.or_eq_none_iff]
  refine ⟨h, List.find?_eq_none.mpr ?_⟩
  intro der hder
  rw [hpushed der hder]
  exact Bool.false_ne_true

omit [DecidableEq Uri] in
theorem Agrees.tail {link : PathLink} {links : List PathLink} {s s' : σ}
    (h : Agrees P anchors candidates (link :: links) s s') :
    Agrees P anchors candidates links s s' := by
  obtain hsame | haddress | hlocal := h
  · exact .inl hsame
  · exact .inr (.inl haddress)
  · exact .inr (.inr fun later hlater => hlocal later (List.mem_cons_of_mem _ hlater))

/-- **The search at one link** finds the same issuer when it has the same choice. -/
theorem findIssuer_again {link : PathLink} {links : List PathLink} {pushed pushed' : List Bytes}
    {s s' w : σ}
    (hchosen : chosen E time anchors candidates' link = chosen E time anchors candidates link)
    (hagrees : Agrees P anchors candidates (link :: links) s s')
    (hfind : findIssuer E U P link.subject time link.below anchors (candidates ++ pushed) s =
      (.ok link.issuer, w))
    (hissuer : isLocalIssuer E link.subject time link.below anchors link.issuer = true)
    (hfresh : link.issuer ∉ pushed) (hpushed : pushed' ⊆ pushed) :
    ∃ w', findIssuer E U P link.subject time link.below anchors (candidates' ++ pushed') s' =
      (.ok link.issuer, w') ∧ Agrees P anchors candidates links w w' := by
  cases hcase : chosen E time anchors candidates link with
  | some der =>
    rw [findIssuer_chosen U P hcase] at hfind
    obtain ⟨rfl, rfl⟩ : der = link.issuer ∧ s = w := by simpa using hfind
    exact ⟨s', findIssuer_chosen U P (hchosen.trans hcase) pushed' s', hagrees.tail⟩
  | none =>
    -- the issuer was fetched: it is neither an anchor nor a candidate
    have hunfit : ∀ der ∈ pushed,
        isLocalIssuer E link.subject time link.below anchors der = false := by
      cases hfirst : pushed.find? (isLocalIssuer E link.subject time link.below anchors) with
      | none => exact fun der hder => by simpa using List.find?_eq_none.mp hfirst der hder
      | some first =>
        have hlocal : (anchors ++ (candidates ++ pushed)).find?
            (isLocalIssuer E link.subject time link.below anchors) = some first := by
          rw [← List.append_assoc, List.find?_append, hfirst]
          exact congrArg (Option.or · _) hcase
        unfold findIssuer at hfind
        simp only [hlocal] at hfind
        obtain ⟨rfl, -⟩ : first = link.issuer ∧ s = w := by simpa using hfind
        exact absurd (List.mem_of_find?_eq_some hfirst) hfresh
    have hlocal := search_none hcase hunfit
    have hlocal' := search_none (hchosen.trans hcase) fun der hder => hunfit der (hpushed hder)
    have hsearch (s : σ) := findIssuer_fetched U P hlocal hlocal' s
    obtain rfl | haddress | hknown := hagrees
    · exact ⟨w, (hsearch s').trans hfind, .inl rfl⟩
    · refine ⟨_, Prod.ext ?_ rfl, .inr (.inl haddress)⟩
      rw [hsearch, findIssuer_byAddress U P haddress _ _ _ s s', hfind]
    · exact absurd hissuer (List.find?_eq_none.mp hcase _ (hknown link List.mem_cons_self))

theorem undisturbed_of_chosen (path : List Bytes) {links : List PathLink}
    (h : ∀ link ∈ links,
      chosen E time anchors candidates' link = chosen E time anchors candidates link) :
    Undisturbed E U P time anchors candidates candidates' path links path := by
  induction links with
  | nil => exact .nil
  | cons link links ih =>
    exact .same (h link List.mem_cons_self)
      (ih fun later hlater => h later (List.mem_cons_of_mem _ hlater))

/-- **Certificates that are chosen nowhere** disturb nothing. -/
theorem undisturbed_of_harmless (path : List Bytes) {links : List PathLink}
    (h : Lib.Inserted (Harmless E time anchors links) [] candidates candidates') :
    Undisturbed E U P time anchors candidates candidates' path links path := by
  refine undisturbed_of_chosen U P path ?_
  intro link hlink
  unfold chosen
  rw [List.find?_append, List.find?_append]
  cases hanchor : anchors.find? (isLocalIssuer E link.subject time link.below anchors) with
  | some anchor => rfl
  | none =>
    rw [Option.none_or, Option.none_or]
    refine h.find?_eq ?_ (by simp)
    intro before der hder hvalid
    obtain ⟨earlier, hmem, hearlier⟩ := hder link hlink hvalid
    obtain hmem | hmem := List.mem_append.mp hmem
    · exact absurd hearlier (List.find?_eq_none.mp hanchor earlier hmem)
    · exact ⟨earlier, hmem, hearlier⟩

end

/-! ## §3. The turns of a climb -/

section
variable {time : DateTime} {anchors : List Bytes}

/-- What a turn has found out about `der` when it starts to search: `visited` and `below`
    subordinate CAs are behind it, and `count` are up to it. -/
structure Searching (E : Externals) (time : DateTime) (anchors visited : List Bytes) (below : Nat)
    (der : Bytes) (cert : Certificate) (count : Nat) : Prop where
  parsed : Certificate.fromDer E der = .ok cert
  valid : validateCertificateTime E cert time = .ok ()
  entered : enter visited der = .ok (visited ++ [der])
  notAnchor : der ∉ anchors
  profile : ∃ profile, validateNonAnchorExtensions cert = .ok profile ∧
    countCurrent profile cert below = count

theorem climbStep_searching {c : Climb σ} {cert : Certificate} {count : Nat}
    (h : Searching E time anchors c.visited c.subordinateCaCount c.current cert count) :
    climbStep E U P time anchors c =
      ((climbLink E U P time anchors c cert (c.visited ++ [c.current]) count).1.map .inr,
        (climbLink E U P time anchors c cert (c.visited ++ [c.current]) count).2) := by
  obtain ⟨profile, hprofile, rfl⟩ := h.profile
  have hnotAnchor : isApprovedAnchor c.current anchors = false := by
    simpa [isApprovedAnchor] using h.notAnchor
  unfold climbStep
  simp only [h.parsed, h.valid, h.entered, hnotAnchor, hprofile, Bool.false_eq_true, if_false]
  split
  next e w hclimb => rw [hclimb]; rfl
  next link w hclimb => rw [hclimb]; rfl

/-- What a link of a turn rests on. -/
theorem climbStep_search {c : Climb σ} {link : Link σ} {w : σ}
    (h : climbStep E U P time anchors c = (.ok (.inr link), w)) :
    Searching E time anchors c.visited c.subordinateCaCount c.current link.subject
        link.climb.subordinateCaCount ∧
      findIssuer E U P link.subject time link.climb.subordinateCaCount anchors
        c.collection.candidates c.world = (.ok link.issuerDer, w) ∧
      validateDirectIssuerForPath E link.subject link.issuer time link.climb.subordinateCaCount
        (isApprovedAnchor link.issuerDer anchors) = .ok () := by
  unfold climbStep at h
  split at h
  · exact absurd h (by simp)
  next cert hparse =>
  split at h
  · exact absurd h (by simp)
  next htime =>
  split at h
  · exact absurd h (by simp)
  next visited henter =>
  obtain ⟨-, -, rfl⟩ := enter_ok henter
  split at h
  · exact absurd h (by simp)
  next hnotAnchor =>
  split at h
  · exact absurd h (by simp)
  next profile hprofile =>
  split at h
  · exact absurd h (by simp)
  next link' w' hclimb =>
  obtain ⟨rfl, rfl⟩ : link' = link ∧ w' = w := by simpa using h
  clear h
  unfold climbLink at hclimb
  split at hclimb
  · exact absurd hclimb (by simp)
  next issuerDer w'' hfind =>
  split at hclimb
  · exact absurd hclimb (by simp)
  split at hclimb
  · exact absurd hclimb (by simp)
  next hdirect =>
  obtain ⟨rfl, rfl⟩ : _ = link' ∧ w'' = w' := by simpa using hclimb
  exact ⟨⟨hparse, htime, henter, by simpa [isApprovedAnchor] using hnotAnchor,
    profile, hprofile, rfl⟩, hfind, hdirect⟩

omit [DecidableEq Uri] in
theorem isLocalIssuer_ok {subject : Certificate} {count : Nat} {der : Bytes}
    (h : isLocalIssuer E subject time count anchors der = true) :
    ∃ issuer, Certificate.fromDer E der = .ok issuer ∧ validateDirectIssuerForPath E subject issuer
      time count (isApprovedAnchor der anchors) = .ok () := by
  unfold isLocalIssuer at h
  rw [Bool.and_eq_true] at h
  obtain ⟨-, h⟩ := h
  split at h
  · cases h
  next issuer hparse =>
    refine ⟨issuer, hparse, ?_⟩
    cases hdirect : validateDirectIssuerForPath E subject issuer time count
        (isApprovedAnchor der anchors) with
    | error e =>
      rw [hdirect] at h
      cases h
    | ok u => rfl

/-- **A turn that takes an issuer**: the search has found a directly valid one. -/
theorem verifyTurn_taken {c : Climb σ} {cert : Certificate} {count : Nat} {issuerDer : Bytes}
    {w : σ}
    (h : Searching E time anchors c.visited c.subordinateCaCount c.current cert count)
    (hissuer : isLocalIssuer E cert time count anchors issuerDer = true)
    (hfind : findIssuer E U P cert time count anchors c.collection.candidates c.world =
      (.ok issuerDer, w)) :
    verifyTurn E U P time anchors c = .next ⟨issuerDer, c.visited ++ [c.current], count,
      pushCandidate c.collection issuerDer, w⟩ := by
  obtain ⟨issuer, hparse, hdirect⟩ := isLocalIssuer_ok hissuer
  have hclimb : climbLink E U P time anchors c cert (c.visited ++ [c.current]) count =
      (.ok ⟨cert, issuer, issuerDer, ⟨issuerDer, c.visited ++ [c.current], count, c.collection,
        w⟩⟩, w) := by
    unfold climbLink
    simp only [hfind, hparse, hdirect]
  unfold verifyTurn
  rw [climbStep_searching U P h, hclimb]
  rfl

/-- On an anchor a turn does not look at its candidates. -/
theorem verifyTurn_anchor {c : Climb σ} {cert : Certificate}
    (hentered : Entered (E := E) time c cert) (hanchor : c.current ∈ anchors) :
    verifyTurn E U P time anchors c = .done (.ok (c.visited ++ [c.current]), c.world) := by
  have htime : validateCertificateTime E cert time = .ok () := by
    obtain ⟨hbefore, hafter⟩ := hentered.valid
    unfold validateCertificateTime
    rw [if_neg (Nat.not_lt.mpr hbefore), if_neg (Nat.not_lt.mpr hafter)]
  have henter : enter c.visited c.current = .ok (c.visited ++ [c.current]) := by
    unfold enter
    rw [if_neg (by simpa using hentered.fresh), if_neg (Nat.not_le.mpr hentered.depth)]
  have happroved : isApprovedAnchor c.current anchors = true := by
    simpa [isApprovedAnchor] using hanchor
  unfold verifyTurn climbStep
  simp only [hentered.parsed, htime, henter, happroved, if_true]

/-- A turn that ends a climb with a path stands on an anchor. -/
theorem verifyTurn_done {c : Climb σ} {path : List Bytes} {w : σ}
    (h : verifyTurn E U P time anchors c = .done (.ok path, w)) :
    ∃ cert, Entered (E := E) time c cert ∧ c.current ∈ anchors ∧
      path = c.visited ++ [c.current] := by
  unfold verifyTurn at h
  split at h
  · injection h with h
    exact absurd h (by simp)
  next path' w' hstep =>
    injection h with h
    obtain ⟨rfl, -⟩ : path' = path ∧ w' = w := by simpa using h
    obtain ⟨cert, hentered, hanchor, hpath, -⟩ := climbStep_anchor U P hstep
    exact ⟨cert, hentered, hanchor, hpath⟩
  · exact absurd h (by simp)

/-- The certificate a successful run stands on is behind it from then on. -/
theorem runs_path {c : Climb σ} {path : List Bytes} {w : σ}
    (h : Lib.Runs (verifyTurn E U P time anchors) c (.ok path, w)) :
    c.current ∉ c.visited ∧ ∃ rest, path = c.visited ++ c.current :: rest := by
  generalize hresult : ((.ok path, w) : Except MaterialError (List Bytes) × σ) = result at h
  induction h with
  | @done c r hturn =>
    subst hresult
    obtain ⟨cert, hentered, -, hpath⟩ := verifyTurn_done U P hturn
    exact ⟨hentered.fresh, [], hpath⟩
  | @next c c' r hturn _ ih =>
    obtain ⟨-, rest, hrest⟩ := ih hresult
    obtain ⟨link, hlink, hcurrent, hvisited, -⟩ := verifyTurn_next U P hturn
    refine ⟨hlink.entered.fresh, c'.current :: rest, ?_⟩
    rw [hrest, hvisited, hlink.visited, List.append_assoc]
    rfl

/-- Where the links of a path go on from a certificate that is searched for. -/
theorem pathLinks_cons {visited : List Bytes} {below count : Nat} {der : Bytes}
    {cert : Certificate} (h : Searching E time anchors visited below der cert count)
    (issuer : Bytes) (rest : List Bytes) :
    pathLinks E visited below (der :: issuer :: rest) =
      ⟨cert, visited ++ [der], count, issuer⟩ ::
        pathLinks E (visited ++ [der]) count (issuer :: rest) := by
  obtain ⟨profile, hprofile, rfl⟩ := h.profile
  obtain ⟨hprofile, -⟩ := validatePathExtensions_ok (mapError_eq_ok hprofile)
  have hcount : (below + if isSubordinateCa cert then 1 else 0) =
      countCurrent profile cert below := by
    simp only [isSubordinateCa, hprofile, countCurrent]
    split <;> rfl
  rw [pathLinks, h.parsed]
  simp only [hcount]

/-- A turn that goes on, and is not back at a certificate behind it. -/
theorem verifyTurn_link {c c' : Climb σ} (h : verifyTurn E U P time anchors c = .next c')
    (hfresh : c'.current ∉ c'.visited) :
    ∃ cert count, Searching E time anchors c.visited c.subordinateCaCount c.current cert count ∧
      isLocalIssuer E cert time count anchors c'.current = true ∧
      findIssuer E U P cert time count anchors c.collection.candidates c.world =
        (.ok c'.current, c'.world) ∧
      c' = ⟨c'.current, c.visited ++ [c.current], count, pushCandidate c.collection c'.current,
        c'.world⟩ := by
  unfold verifyTurn at h
  split at h
  · exact absurd h (by simp)
  · exact absurd h (by simp)
  next link w hstep =>
    injection h with h
    obtain ⟨hsearching, hfind, hdirect⟩ := climbStep_search U P hstep
    obtain ⟨hlink, hworld⟩ := climbStep_link U P hstep
    subst h
    have hne : link.issuerDer ≠ c.current := by
      intro heq
      apply hfresh
      show link.climb.current ∈ link.climb.visited
      rw [hlink.current, hlink.visited, heq]
      exact List.mem_append_right _ List.mem_cons_self
    have hissuer : isLocalIssuer E link.subject time link.climb.subordinateCaCount anchors
        link.issuerDer = true := by
      have hraw := fromDer_rawDer E hsearching.parsed
      unfold isLocalIssuer
      simp only [hlink.issuerParsed, hdirect, hraw, hne, ne_eq, not_false_eq_true, decide_true,
        Bool.true_and]
      rfl
    refine ⟨link.subject, link.climb.subordinateCaCount, hsearching, ?_, ?_, ?_⟩
    · show isLocalIssuer E link.subject time link.climb.subordinateCaCount anchors
        link.climb.current = true
      rw [hlink.current]
      exact hissuer
    · show findIssuer E U P link.subject time link.climb.subordinateCaCount anchors
        c.collection.candidates c.world = (.ok link.climb.current, link.climb.world)
      rw [hlink.current, hworld]
      exact hfind
    · show (⟨link.climb.current, link.climb.visited, link.climb.subordinateCaCount,
        pushCandidate link.climb.collection link.issuerDer, link.climb.world⟩ : Climb σ) = _
      rw [hlink.current, hlink.visited, hlink.collection]

/-! ## §4. What is pushed -/

/-- What pushing an issuer appends. -/
theorem pushNew_append (der : Bytes) (candidates pushed : List Bytes) :
    pushNew der (candidates ++ pushed) =
      candidates ++ if der ∈ candidates ++ pushed then pushed else pushed ++ [der] := by
  unfold pushNew
  simp only [List.contains_eq_mem, decide_eq_true_eq]
  split
  · rfl
  · rw [List.append_assoc]

/-- The certificates `behind`, of which some were pushed, and one more. -/
theorem pushed_subset {pushed behind : List Bytes} (der : Bytes) (h : pushed ⊆ behind)
    (held : List Bytes) :
    (if der ∈ held then pushed else pushed ++ [der]) ⊆ behind ++ [der] := by
  split
  · exact fun x hx => List.mem_append_left _ (h hx)
  · exact List.append_subset.mpr ⟨fun x hx => List.mem_append_left _ (h hx),
      List.subset_append_right _ _⟩

/-- Two climbs over `candidates` and `candidates'` have pushed certificates `behind` them, the
    second none that the first has not. -/
def PushedAlike (candidates candidates' behind l l' : List Bytes) : Prop :=
  ∃ pushed pushed', l = candidates ++ pushed ∧ l' = candidates' ++ pushed' ∧
    pushed' ⊆ pushed ∧ pushed ⊆ behind

theorem PushedAlike.push {candidates candidates' behind l l' : List Bytes} {der : Bytes}
    (h : PushedAlike candidates candidates' behind l l') (hincl : candidates ⊆ candidates')
    (hfresh : der ∉ behind) :
    PushedAlike candidates candidates' (behind ++ [der]) (pushNew der l) (pushNew der l') := by
  obtain ⟨pushed, pushed', rfl, rfl, hsub, hbehind⟩ := h
  refine ⟨_, _, pushNew_append der candidates pushed, pushNew_append der candidates' pushed', ?_,
    pushed_subset der hbehind _⟩
  by_cases hheld : der ∈ candidates ++ pushed
  · have hcandidate : der ∈ candidates := by
      obtain hmem | hmem := List.mem_append.mp hheld
      · exact hmem
      · exact absurd (hbehind hmem) hfresh
    have hheld' : der ∈ candidates' ++ pushed' := List.mem_append_left _ (hincl hcandidate)
    rw [if_pos hheld, if_pos hheld']
    exact hsub
  · rw [if_neg hheld]
    exact pushed_subset der hsub _

/-! ## §5. Leading on -/

/-- A provider that answers nothing. -/
def offline : EvidenceProvider Unit Uri where
  fetchIssuer _ s := (.error "offline", s)
  status _ _ _ _ s := (.error .noChain, s)

omit [DecidableEq Uri] in
theorem fetchLoop_offline (subject : Certificate) (count : Nat) (urls : List Uri)
    (failures : List String) (s : Unit) (der : Bytes) :
    (fetchLoop E U offline subject time count anchors urls failures s).1 ≠ .ok der := by
  induction urls generalizing failures with
  | nil => exact fun h => by cases h
  | cons url urls ih => exact ih _

section
variable {candidates : List Bytes} {link : PathLink} {der : Bytes}

/-- What is found offline is chosen, unless it was pushed. -/
theorem chosen_of_offline {pushed : List Bytes} {s w : Unit}
    (hfind : findIssuer E U offline link.subject time link.below anchors (candidates ++ pushed) s =
      (.ok der, w)) (hfresh : der ∉ pushed) : chosen E time anchors candidates link = some der := by
  unfold findIssuer at hfind
  split at hfind
  next first hlocal =>
    obtain ⟨rfl, -⟩ : first = der ∧ s = w := by simpa using hfind
    rw [← List.append_assoc, List.find?_append] at hlocal
    obtain hfirst | ⟨-, hfirst⟩ := Option.or_eq_some_iff.mp hlocal
    · exact hfirst
    · exact absurd (List.mem_of_find?_eq_some hfirst) hfresh
  next =>
    split at hfind
    · cases hfind
    · split at hfind
      · cases hfind
      · exact absurd (congrArg Prod.fst hfind) (fetchLoop_offline U _ _ _ _ _ _)

/-- An anchor leads to itself. -/
theorem LeadsOn.anchor {cert : Certificate} (hparse : Certificate.fromDer E der = .ok cert)
    (hvalid : ValidAt time cert) (hfresh : der ∉ link.visited)
    (hdepth : link.visited.length < maxDepth) (hanchor : der ∈ anchors) :
    LeadsOn E U P time anchors candidates link der (link.visited ++ [der]) := by
  intro collection pushed s _ _
  exact ⟨s, .done (verifyTurn_anchor U P ⟨hparse, hvalid, hfresh, hdepth⟩ hanchor)⟩

/-- A certificate leads where the issuer leads that is chosen for it. -/
theorem LeadsOn.issuer {cert : Certificate} {count : Nat} {issuer : Bytes} {path : List Bytes}
    (h : Searching E time anchors link.visited link.below der cert count)
    (hchosen : chosen E time anchors candidates ⟨cert, link.visited ++ [der], count, issuer⟩ =
      some issuer)
    (hleads : LeadsOn E U P time anchors candidates ⟨cert, link.visited ++ [der], count, issuer⟩
      issuer path) :
    LeadsOn E U P time anchors candidates link der path := by
  intro collection pushed s hcandidates hpushed
  have hfind := findIssuer_chosen U P hchosen pushed s
  rw [← hcandidates] at hfind
  have hturn := verifyTurn_taken U P (c := ⟨der, link.visited, link.below, collection, s⟩) h
    (List.find?_some hchosen) hfind
  obtain ⟨w, hrun⟩ := hleads (pushCandidate collection issuer) _ s
    (by rw [← pushNew_append, ← hcandidates]; rfl) (pushed_subset issuer hpushed _)
  exact ⟨w, .next hturn hrun⟩

/-- **A certificate that leads on offline leads on**: where the climb from it over the
    candidates comes to an anchor and asks no address, it does so with every provider. -/
theorem leadsOn_of_offline {c : Climb Unit} {path : List Bytes} {w : Unit} {pushed : List Bytes}
    (hrun : Lib.Runs (verifyTurn E U offline time anchors) c (.ok path, w))
    (hcandidates : c.collection.candidates = candidates ++ pushed)
    (hpushed : pushed ⊆ c.visited ++ [c.current]) (hvisited : link.visited = c.visited)
    (hbelow : link.below = c.subordinateCaCount) :
    LeadsOn E U P time anchors candidates link c.current path := by
  generalize hresult : ((.ok path, w) : Except MaterialError (List Bytes) × Unit) = result at hrun
  induction hrun generalizing pushed link with
  | @done c r hturn =>
    subst hresult
    obtain ⟨cert, hentered, hanchor, rfl⟩ := verifyTurn_done U offline hturn
    rw [← hvisited]
    refine LeadsOn.anchor U P hentered.parsed hentered.valid ?_ ?_ hanchor
    · rw [hvisited]
      exact hentered.fresh
    · rw [hvisited]
      exact hentered.depth
  | @next c c' r hturn hrun ih =>
    subst hresult
    obtain ⟨hfresh, -⟩ := runs_path U offline hrun
    obtain ⟨cert, count, hsearching, hissuer, hfind, hc'⟩ := verifyTurn_link U offline hturn hfresh
    obtain ⟨issuer, visited, below, collection, s⟩ := c'
    obtain ⟨rfl, rfl, rfl⟩ : visited = c.visited ++ [c.current] ∧ below = count ∧
        collection = pushCandidate c.collection issuer := by simpa using hc'
    rw [hcandidates] at hfind
    have hchosen : chosen E time anchors candidates
        ⟨cert, link.visited ++ [c.current], below, issuer⟩ = some issuer :=
      chosen_of_offline U hfind fun hmem => hfresh (hpushed hmem)
    rw [← hvisited, ← hbelow] at hsearching
    have hpush : (pushCandidate c.collection issuer).candidates = candidates ++
        if issuer ∈ candidates ++ pushed then pushed else pushed ++ [issuer] := by
      rw [← pushNew_append, ← hcandidates]
      rfl
    exact LeadsOn.issuer U P hsearching hchosen
      (ih hpush (pushed_subset issuer hpushed _) (by rw [hvisited]) rfl rfl)

end

/-! ## §6. The climb -/

/-- **The climb with other candidates**, by simulation. -/
theorem runs_undisturbed {candidates candidates' : List Bytes} (hincl : candidates ⊆ candidates')
    {c : Climb σ} {path path' rest : List Bytes} {w s : σ} {collection : Collection}
    (hrun : Lib.Runs (verifyTurn E U P time anchors) c (.ok path, w))
    (hpath : path = c.visited ++ c.current :: rest)
    (halike : PushedAlike candidates candidates' (c.visited ++ [c.current])
      c.collection.candidates collection.candidates)
    (hagrees : Agrees P anchors candidates
      (pathLinks E c.visited c.subordinateCaCount (c.current :: rest)) c.world s)
    (hund : Undisturbed E U P time anchors candidates candidates' path
      (pathLinks E c.visited c.subordinateCaCount (c.current :: rest)) path') :
    ∃ w', Lib.Runs (verifyTurn E U P time anchors) { c with collection, world := s }
      (.ok path', w') := by
  generalize hresult : ((.ok path, w) : Except MaterialError (List Bytes) × σ) = result at hrun
  induction hrun generalizing rest s collection with
  | @done c r hturn =>
    subst hresult
    obtain ⟨cert, hentered, hanchor, hend⟩ := verifyTurn_done U P hturn
    have hrest : rest = [] := by simpa using hpath.symm.trans hend
    subst hrest
    cases hund
    rw [hend]
    exact ⟨s, .done (verifyTurn_anchor U P (c := { c with collection, world := s })
      ⟨hentered.parsed, hentered.valid, hentered.fresh, hentered.depth⟩ hanchor)⟩
  | @next c c' r hturn hrun ih =>
    subst hresult
    obtain ⟨hfresh, rest', hrest'⟩ := runs_path U P hrun
    obtain ⟨cert, count, hsearching, hissuer, hfind, hc'⟩ := verifyTurn_link U P hturn hfresh
    obtain ⟨issuer, visited, below, collection₁, s₁⟩ := c'
    obtain ⟨rfl, rfl, rfl⟩ : visited = c.visited ++ [c.current] ∧ below = count ∧
        collection₁ = pushCandidate c.collection issuer := by simpa using hc'
    -- the path goes on to the issuer
    have hrest : rest = issuer :: rest' := by
      rw [hpath, List.append_assoc] at hrest'
      simpa using hrest'
    rw [hrest, pathLinks_cons hsearching issuer rest'] at hagrees hund
    have hpushed : PushedAlike candidates candidates' (c.visited ++ [c.current] ++ [issuer])
        (pushCandidate c.collection issuer).candidates
        (pushCandidate collection issuer).candidates := halike.push hincl hfresh
    obtain ⟨pushed, pushed', hcandidates, hcandidates', hsub, hbehind⟩ := halike
    -- a turn of the second climb, given what its search finds
    have hturn' {der : Bytes} {s' : σ}
        (hvalid : isLocalIssuer E cert time below anchors der = true)
        (hfind' : findIssuer E U P cert time below anchors collection.candidates s =
          (.ok der, s')) := verifyTurn_taken U P (c := { c with collection, world := s })
            hsearching hvalid hfind'
    cases hund with
    | same hchosen hund =>
      rw [hcandidates] at hfind
      obtain ⟨s', hfind', hagrees'⟩ := findIssuer_again U P hchosen hagrees hfind hissuer
        (fun hmem => hfresh (hbehind hmem)) hsub
      rw [← hcandidates'] at hfind'
      obtain ⟨w', hrun'⟩ := ih hrest' hpushed hagrees' hund rfl
      exact ⟨w', .next (hturn' hissuer hfind') hrun'⟩
    | copy hchosen hlater hund =>
      have hfind' := findIssuer_chosen U P hchosen pushed' s
      rw [← hcandidates'] at hfind'
      obtain ⟨w', hrun'⟩ := ih hrest' hpushed (.inr hlater) hund rfl
      exact ⟨w', .next (hturn' hissuer hfind') hrun'⟩
    | other der hchosen hleads =>
      have hfind' := findIssuer_chosen U P hchosen pushed' s
      rw [← hcandidates'] at hfind'
      obtain ⟨w', hrun'⟩ := hleads (pushCandidate collection der) _ s
        (by rw [← pushNew_append, ← hcandidates']; rfl)
        (pushed_subset der (fun x hx => hbehind (hsub hx)) _)
      exact ⟨w', .next (hturn' (List.find?_some hchosen) hfind') hrun'⟩

/-- **Where addresses answer alike** whatever was asked before, a certificate leads on exactly
    if one climb from it comes to an anchor, with what is behind it at hand. -/
theorem leadsOn_iff_byAddress (haddress : P.AnswersByAddress) {candidates path : List Bytes}
    {link : PathLink} {der : Bytes} {collection : Collection} (s : σ)
    (hcandidates : collection.candidates = candidates ++ (link.visited ++ [der])) :
    LeadsOn E U P time anchors candidates link der path ↔
      ∃ w, Lib.Runs (verifyTurn E U P time anchors)
        ⟨der, link.visited, link.below, collection, s⟩ (.ok path, w) := by
  constructor
  · intro hleads
    exact hleads collection _ s hcandidates (List.Subset.refl _)
  · rintro ⟨w, hrun⟩ collection' pushed s' hcandidates' hpushed
    obtain ⟨-, rest, hpath⟩ := runs_path U P hrun
    exact runs_undisturbed U P (List.Subset.refl candidates) hrun hpath
      ⟨_, pushed, hcandidates, hcandidates', hpushed, List.Subset.refl _⟩ (.inr (.inl haddress))
      (undisturbed_of_chosen U P path fun _ _ => rfl)

/-- **Path building with further certificates**: a path that is found with some candidates is
    found with any that hold these, in whatever order and with whatever others in between,
    where these do not disturb it: at every link the search takes what it took before, a copy
    of the issuer it had to fetch, or a certificate that leads to an anchor itself. -/
theorem verifyChainWith_inserted {leaf : Bytes} {collection collection' : Collection} {s w : σ}
    {path path' : List Bytes}
    (h : verifyChainWith E U P leaf time anchors collection s = some (.ok path, w))
    (hincl : collection.candidates ⊆ collection'.candidates)
    (hund : Undisturbed E U P time anchors collection.candidates collection'.candidates path
      (pathLinks E [] 0 path) path') :
    ∃ w', verifyChainWith E U P leaf time anchors collection' s = some (.ok path', w') := by
  unfold verifyChainWith at h ⊢
  split at h
  · exact absurd h (by simp)
  next hanchors =>
  rw [if_neg hanchors]
  have hrun := Lib.runs_of_loop h
  obtain ⟨-, rest, hpath⟩ := runs_path U P hrun
  have halike : PushedAlike collection.candidates collection'.candidates [leaf]
      collection.candidates collection'.candidates :=
    ⟨[], [], (List.append_nil _).symm, (List.append_nil _).symm, List.Subset.refl _,
      List.nil_subset _⟩
  have hlinks : pathLinks E [] 0 path = pathLinks E [] 0 (leaf :: rest) := by
    rw [hpath]
    rfl
  rw [hlinks] at hund
  obtain ⟨w', hagain⟩ := runs_undisturbed U P hincl hrun hpath halike (.inl rfl) hund
  refine ⟨w', Lib.loop_of_runs roomLeft ?_ hagain (by simp [roomLeft])⟩
  intro c c' hnext
  obtain ⟨link, hlink, -, hvisited, -⟩ := verifyTurn_next U P hnext
  exact roomLeft_link P hlink hvisited

end

/-! ## §7. A certificate that leads nowhere -/

/-- `L`, signed by the key of `C`; it names an address. -/
def leafDer : Bytes :=
  octets 32 0x3082018230820127a003020102020107300a06082a8648ce3d040302300c310a ++
  octets 32 0x300806035504030c0143301e170d3236313131393133303434365a170d333631 ++
  octets 32 0x3131363133303434365a300c310a300806035504030c014c3059301306072a86 ++
  octets 32 0x48ce3d020106082a8648ce3d03010703420004b9dd104fa27bd20424a6dec810 ++
  octets 32 0xf205c1c9af0c1032f09fef4e657b07471a5edb0dccb550229ec88c877b464a03 ++
  octets 32 0xcbe849a309d3198ab69b4fcb9c6220e4e60beea37a3078300e0603551d0f0101 ++
  octets 32 0xff040403020780301d0603551d0e041604148db330095c08e8912e931006c3af ++
  octets 32 0xeb063562e684301f0603551d2304183016801465cb35250247f6d3b2e5b08a67 ++
  octets 32 0xd66c9c48017ced302606082b06010505070101041a3018301606082b06010505 ++
  octets 32 0x073002860a687474703a2f2f612f63300a06082a8648ce3d0403020349003046 ++
  octets 32 0x022100e8f5a1463f75d854947d1c6dcebc3fed48b813ff13ef79ea89c32bb227 ++
  octets 32 0xd29bf5022100d88bf2413d28fb724cdfa99f126e83a381a97b84f3d9a726683b ++
  octets 6 0x5ebc86ff12e8

/-- `C`, signed by `I`; it names another address. -/
def caDer : Bytes :=
  octets 32 0x308201943082013aa003020102020104300a06082a8648ce3d040302300c310a ++
  octets 32 0x300806035504030c0149301e170d3236313131393133303434365a170d333631 ++
  octets 32 0x3131363133303434365a300c310a300806035504030c01433059301306072a86 ++
  octets 32 0x48ce3d020106082a8648ce3d03010703420004b2b21063ca3bff76cf85c8cb84 ++
  octets 32 0xb5cb48a84b5fb68e6b7e807137f20c1a30d884858801263769459b00b78d67f5 ++
  octets 32 0xbcdea4643443014ff5007ea3ccff219e22fa09a3818c308189300f0603551d13 ++
  octets 32 0x0101ff040530030101ff300e0603551d0f0101ff040403020204301d0603551d ++
  octets 32 0x0e0416041465cb35250247f6d3b2e5b08a67d66c9c48017ced301f0603551d23 ++
  octets 32 0x04183016801472d5631745ab790a1d858e11bf070a2d4d2414be302606082b06 ++
  octets 32 0x010505070101041a3018301606082b06010505073002860a687474703a2f2f61 ++
  octets 32 0x2f69300a06082a8648ce3d0403020348003045022100a018c1de4d87f2a1cd5c ++
  octets 32 0x878c1ca6aa6fc59d7c564d87cca114b1273dd55d1779022061d2217aa07c175c ++
  octets 24 0x1eb48460ec00ab0613f32722bcdc78d403e426137ae13689

/-- `I`, signed by the root. -/
def intermediateDer : Bytes :=
  octets 32 0x3082016a30820110a003020102020103300a06082a8648ce3d040302300c310a ++
  octets 32 0x300806035504030c0152301e170d3236313131393133303434365a170d333631 ++
  octets 32 0x3131363133303434365a300c310a300806035504030c01493059301306072a86 ++
  octets 32 0x48ce3d020106082a8648ce3d03010703420004cd6c9fdc2d290dab516b86137d ++
  octets 32 0x934f47d0152386e7a69ca20ee28da1af7394adc428002f8e5da5cb0971d21415 ++
  octets 32 0x5a981aceafc7c8a970dbd80b206fae5de51214a3633061300f0603551d130101 ++
  octets 32 0xff040530030101ff300e0603551d0f0101ff040403020204301d0603551d0e04 ++
  octets 32 0x16041472d5631745ab790a1d858e11bf070a2d4d2414be301f0603551d230418 ++
  octets 32 0x30168014cf157eadca56b53021af7fa1ce2856f2788c5c8a300a06082a8648ce ++
  octets 32 0x3d0403020348003045022005a01b94d874d2863effe5fcd089812bb1d2e8620b ++
  octets 32 0x7e570f5c1c6d00f01f6bae022100f8c8e3a2001d0fbcb27c6069f03deffa614e ++
  octets 14 0x8163adf67795273778177c7f4c08

/-- `C` with the same key, signed by the root. -/
def renewedDer : Bytes :=
  octets 32 0x3082016a30820110a003020102020106300a06082a8648ce3d040302300c310a ++
  octets 32 0x300806035504030c0152301e170d3236313131393133303434365a170d333731 ++
  octets 32 0x3131363133303434365a300c310a300806035504030c01433059301306072a86 ++
  octets 32 0x48ce3d020106082a8648ce3d03010703420004b2b21063ca3bff76cf85c8cb84 ++
  octets 32 0xb5cb48a84b5fb68e6b7e807137f20c1a30d884858801263769459b00b78d67f5 ++
  octets 32 0xbcdea4643443014ff5007ea3ccff219e22fa09a3633061300f0603551d130101 ++
  octets 32 0xff040530030101ff300e0603551d0f0101ff040403020204301d0603551d0e04 ++
  octets 32 0x16041465cb35250247f6d3b2e5b08a67d66c9c48017ced301f0603551d230418 ++
  octets 32 0x30168014cf157eadca56b53021af7fa1ce2856f2788c5c8a300a06082a8648ce ++
  octets 32 0x3d0403020348003045022100bb6a6ea00300dce176f2c406648560bcf2b31db7 ++
  octets 32 0xee7e5e4ad7578e0138e7560502206508c48b465571cde739409bc8f26b785c02 ++
  octets 14 0x394d80f022c44df104efeac368a4

/-- `C` with the same key, signed by an authority `X` that nobody knows. -/
def crossDer : Bytes :=
  octets 32 0x3082016b30820110a003020102020105300a06082a8648ce3d040302300c310a ++
  octets 32 0x300806035504030c0158301e170d3236313131393133303434365a170d333631 ++
  octets 32 0x3131363133303434365a300c310a300806035504030c01433059301306072a86 ++
  octets 32 0x48ce3d020106082a8648ce3d03010703420004b2b21063ca3bff76cf85c8cb84 ++
  octets 32 0xb5cb48a84b5fb68e6b7e807137f20c1a30d884858801263769459b00b78d67f5 ++
  octets 32 0xbcdea4643443014ff5007ea3ccff219e22fa09a3633061300f0603551d130101 ++
  octets 32 0xff040530030101ff300e0603551d0f0101ff040403020204301d0603551d0e04 ++
  octets 32 0x16041465cb35250247f6d3b2e5b08a67d66c9c48017ced301f0603551d230418 ++
  octets 32 0x301680142013d3b3b4fa693ee450dbc147feb579a94149e3300a06082a8648ce ++
  octets 32 0x3d0403020349003046022100cd1b603ba6d669ee1c248a581946cadf1d00af07 ++
  octets 32 0xfdd7946c8178dd07142780e2022100d620b37cab495b8675ffd500389329cac9 ++
  octets 15 0xfe11c071c7696f92d022f8fd0b418a

/-- The root `R`. -/
def rootDer : Bytes :=
  octets 32 0x308201473081efa003020102020101300a06082a8648ce3d040302300c310a30 ++
  octets 32 0x0806035504030c0152301e170d3236313131393133303434365a170d33363131 ++
  octets 32 0x31363133303434365a300c310a300806035504030c01523059301306072a8648 ++
  octets 32 0xce3d020106082a8648ce3d0301070342000458580ac3ee5e7ced571b3f3145eb ++
  octets 32 0x031a5c153b0bb77d976caa7a1e8d2dd22f582cd58bbc0990bafde508afaee026 ++
  octets 32 0x04f59b380fb451887bf3893347c3b4a49336a3423040300f0603551d130101ff ++
  octets 32 0x040530030101ff300e0603551d0f0101ff040403020204301d0603551d0e0416 ++
  octets 32 0x0414cf157eadca56b53021af7fa1ce2856f2788c5c8a300a06082a8648ce3d04 ++
  octets 32 0x030203470030440220316726c944848292915df112d63a1ae4336ae02a1793ed ++
  octets 32 0x8796595afee8d9be03022037a10eeeb2c230e47a0f36abbc8fc1a370c217fcbf ++
  octets 11 0xbfba1ef94644195be36552

/-- The digests of the TBSCertificates of four of them, and the signatures over these. -/
def pathExternals : Externals :=
  Externals.sample []
    [((leafDer.drop 4).take 299,
      octets 32 0x8c5c4a140ef14d7f12aa01166da56072300e296a944eba09d9011df9ad045518),
     ((caDer.drop 4).take 318,
      octets 32 0x4c7790193c91cc74bb041e803b3443d4ac7d3940f5293a8aeb0d2b14025274c9),
     ((intermediateDer.drop 4).take 276,
      octets 32 0x05bd632d7c751c929e55a0eb95094a6888f893b489f73a0d86f32246559f2130),
     ((renewedDer.drop 4).take 276,
      octets 32 0xe506dd86633450629a119b49e17ea1b62ae767bda1ada7666e8ddc82098fc910)]
    [(octets 32 0x04b2b21063ca3bff76cf85c8cb84b5cb48a84b5fb68e6b7e807137f20c1a30d8 ++
        octets 32 0x84858801263769459b00b78d67f5bcdea4643443014ff5007ea3ccff219e22fa ++
        octets 1 0x09,
      octets 32 0x3046022100e8f5a1463f75d854947d1c6dcebc3fed48b813ff13ef79ea89c32b ++
        octets 32 0xb227d29bf5022100d88bf2413d28fb724cdfa99f126e83a381a97b84f3d9a726 ++
        octets 8 0x683b5ebc86ff12e8,
      octets 32 0x8c5c4a140ef14d7f12aa01166da56072300e296a944eba09d9011df9ad045518),
     (octets 32 0x04cd6c9fdc2d290dab516b86137d934f47d0152386e7a69ca20ee28da1af7394 ++
        octets 32 0xadc428002f8e5da5cb0971d214155a981aceafc7c8a970dbd80b206fae5de512 ++
        octets 1 0x14,
      octets 32 0x3045022100a018c1de4d87f2a1cd5c878c1ca6aa6fc59d7c564d87cca114b127 ++
        octets 32 0x3dd55d1779022061d2217aa07c175c1eb48460ec00ab0613f32722bcdc78d403 ++
        octets 7 0xe426137ae13689,
      octets 32 0x4c7790193c91cc74bb041e803b3443d4ac7d3940f5293a8aeb0d2b14025274c9),
     (octets 32 0x0458580ac3ee5e7ced571b3f3145eb031a5c153b0bb77d976caa7a1e8d2dd22f ++
        octets 32 0x582cd58bbc0990bafde508afaee02604f59b380fb451887bf3893347c3b4a493 ++
        octets 1 0x36,
      octets 32 0x3045022005a01b94d874d2863effe5fcd089812bb1d2e8620b7e570f5c1c6d00 ++
        octets 32 0xf01f6bae022100f8c8e3a2001d0fbcb27c6069f03deffa614e8163adf6779527 ++
        octets 7 0x3778177c7f4c08,
      octets 32 0x05bd632d7c751c929e55a0eb95094a6888f893b489f73a0d86f32246559f2130),
     (octets 32 0x0458580ac3ee5e7ced571b3f3145eb031a5c153b0bb77d976caa7a1e8d2dd22f ++
        octets 32 0x582cd58bbc0990bafde508afaee02604f59b380fb451887bf3893347c3b4a493 ++
        octets 1 0x36,
      octets 32 0x3045022100bb6a6ea00300dce176f2c406648560bcf2b31db7ee7e5e4ad7578e ++
        octets 32 0x0138e7560502206508c48b465571cde739409bc8f26b785c02394d80f022c44d ++
        octets 7 0xf104efeac368a4,
      octets 32 0xe506dd86633450629a119b49e17ea1b62ae767bda1ada7666e8ddc82098fc910)]

/-- Every text is an address. -/
def sampleAddresses : UriCrate Bytes where
  parse loc := some loc
  display _ := ""

/-- `verify_chain_with` for the leaf on 1 December 2026, under the root. -/
def findPath {σ : Type} (P : EvidenceProvider σ Bytes) (candidates : List Bytes) (s : σ) :
    Option (Except MaterialError (List Bytes) × σ) :=
  verifyChainWith pathExternals sampleAddresses P leafDer 1796083200 [rootDer] { candidates } s

/-- A provider that answers its first question with `C` and its second with `I`, whatever the
    address. -/
def inTurn : EvidenceProvider Nat Bytes where
  fetchIssuer _ asked := (if asked = 0 then .ok caDer else .ok intermediateDer, asked + 1)
  status _ _ _ _ s := (.error .noChain, s)

/-- **In front of the path, a further certificate ends it**: the climb takes the cross-signed
    certificate and does not come back; and a copy of what is fetched has the next address
    asked too early. -/
theorem findPath_inFront :
    (findPath offline [caDer, intermediateDer] () =
        some (.ok [leafDer, caDer, intermediateDer, rootDer], ()) ∧
      findPath offline [crossDer, caDer, intermediateDer] () =
        some (.error (.noIssuer
          "certificate has no CA Issuers address and is not an approved anchor"), ())) ∧
    (findPath inTurn [] 0 = some (.ok [leafDer, caDer, intermediateDer, rootDer], 2) ∧
      (findPath inTurn [caDer] 0).map (fun r => r.1.isOk) = some false) := by
  refine ⟨⟨?_, ?_⟩, ?_, ?_⟩ <;> decide +kernel

/-- A renewed certificate in front of the one the path took: the path goes on to the root from
    there. -/
theorem findPath_renewed :
    ∃ w, findPath offline [renewedDer, crossDer, caDer, intermediateDer] () =
      some (.ok [leafDer, renewedDer, rootDer], w) := by
  have hfound : findPath offline [caDer, intermediateDer] () =
      some (.ok [leafDer, caDer, intermediateDer, rootDer], ()) := by decide +kernel
  refine verifyChainWith_inserted sampleAddresses offline hfound (by simp) ?_
  have hlinks : (pathLinks pathExternals [] 0
      [leafDer, caDer, intermediateDer, rootDer]).isEmpty = false := by decide +kernel
  have hfirst : ∀ link ∈ (pathLinks pathExternals [] 0
      [leafDer, caDer, intermediateDer, rootDer]).take 1,
      chosen pathExternals 1796083200 [rootDer] [renewedDer, crossDer, caDer, intermediateDer]
        link = some renewedDer ∧ link.visited = [leafDer] ∧ link.below = 0 := by decide +kernel
  generalize pathLinks pathExternals [] 0 [leafDer, caDer, intermediateDer, rootDer] = links at *
  obtain _ | ⟨link, links⟩ := links
  · cases hlinks
  · obtain ⟨hchosen, hvisited, hbelow⟩ := hfirst link (by simp)
    have hrun : Lib.Runs (verifyTurn pathExternals sampleAddresses offline 1796083200 [rootDer])
        ⟨renewedDer, [leafDer], 0,
          { candidates := [renewedDer, crossDer, caDer, intermediateDer] }, ()⟩
        (.ok [leafDer, renewedDer, rootDer], ()) :=
      Lib.runs_of_loop (show Lib.loop _ 8 _ = _ by decide +kernel)
    exact .other renewedDer hchosen (leadsOn_of_offline sampleAddresses offline hrun
      (List.append_nil _).symm (List.nil_subset _) hvisited hbelow)

end ChainWalk

end RefineId
