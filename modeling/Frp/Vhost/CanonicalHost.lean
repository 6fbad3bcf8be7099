/-
What `CanonicalHost` makes of a host, and which configured domains are spelled in
a way that the lookup of a canonical host comes to.
-/
import Frp.Vhost.Lookup

namespace Frp

open GoStrings

def star : UInt8 := 42

/-- `strings.ToLower` as far as hosts depend on it: it goes rune by rune, so a
dot separates what it does, and only letters are changed. -/
structure LowerCase (toLower : Bytes → Bytes) : Prop where
  append : ∀ label rest,
    toLower (label ++ dot :: rest) = toLower label ++ dot :: toLower rest
  punctuation : ∀ text, ∀ byte ∈ [dot, colon, openBracket],
    byte ∈ toLower text → byte ∈ text
  nonempty : ∀ text, text ≠ [] → toLower text ≠ []
  small : ∀ text, (∀ byte ∈ text, 97 ≤ byte ∧ byte ≤ 122) →
    toLower text = text

/-- What stands before the first dot of a host: it has no dot and nothing of the
syntax of a port. -/
structure IsLabel (label : Bytes) : Prop where
  nonempty : label ≠ []
  dot : dot ∉ label
  colon : colon ∉ label
  bracket : openBracket ∉ label

/-- A wildcard whose hosts keep its suffix: two labels at least, in lower case,
neither one colon nor a trailing dot. -/
structure SuffixSpelled (toLower : Bytes → Bytes) (suffix : Bytes) : Prop where
  labels : dot ∈ suffix
  lower : toLower suffix = suffix
  colons : suffix.count colon ≠ 1
  trailing : hasSuffix suffix [dot] = false

/-- A domain that is its own canonical host, or a wildcard as above. -/
structure DomainSpelled (toLower : Bytes → Bytes) (domain : Bytes) : Prop where
  exact : star ∉ domain → (canonicalHost toLower domain).1 = domain
  wildcard : ∀ suffix, domain = wildcard suffix → SuffixSpelled toLower suffix

theorem lowerByte_cases (byte : UInt8) :
    lowerByte byte = byte ∨ 97 ≤ lowerByte byte := by
  unfold lowerByte
  split
  · right
    grind
  · exact Or.inl rfl

theorem lowerByte_small {byte : UInt8} (hsmall : 97 ≤ byte) :
    lowerByte byte = byte := by
  unfold lowerByte
  rw [if_neg]
  intro hupper
  grind

theorem lowerCase_asciiToLower : LowerCase asciiToLower where
  append label rest := by
    rw [asciiToLower, List.map_append, List.map_cons]
    rfl
  punctuation text byte hbyte hmem := by
    obtain ⟨before, hbefore, rfl⟩ := List.mem_map.mp hmem
    rcases lowerByte_cases before with hsame | hletter
    · rw [hsame]
      exact hbefore
    · simp only [dot, colon, openBracket, List.mem_cons, List.not_mem_nil,
        or_false] at hbyte
      grind
  nonempty text hne := by simpa [asciiToLower] using hne
  small text hsmall := by
    rw [asciiToLower]
    conv_rhs => rw [← List.map_id text]
    apply List.map_congr_left
    intro byte hbyte
    exact lowerByte_small (hsmall byte hbyte).1

namespace LowerCase

variable {toLower : Bytes → Bytes}

theorem count_dot (hlower : LowerCase toLower) (text : Bytes) :
    (toLower text).count dot = text.count dot := by
  induction hlength : text.length using Nat.strong_induction_on
    generalizing text with
  | _ length ih =>
      by_cases hdot : dot ∈ text
      · obtain ⟨label, rest, rfl⟩ := List.append_of_mem hdot
        rw [List.length_append, List.length_cons] at hlength
        rw [hlower.append, List.count_append, List.count_append,
          List.count_cons_self, List.count_cons_self,
          ih label.length (by omega) label rfl,
          ih rest.length (by omega) rest rfl]
      · have hnot : dot ∉ toLower text := fun hmem =>
          hdot (hlower.punctuation text dot (by simp) hmem)
        rw [List.count_eq_zero.mpr hnot, List.count_eq_zero.mpr hdot]

theorem isLabel (hlower : LowerCase toLower) {label : Bytes}
    (hlabel : IsLabel label) : IsLabel (toLower label) where
  nonempty := hlower.nonempty label hlabel.nonempty
  dot hmem := hlabel.dot (hlower.punctuation label dot (by simp) hmem)
  colon hmem := hlabel.colon (hlower.punctuation label colon (by simp) hmem)
  bracket hmem :=
    hlabel.bracket (hlower.punctuation label openBracket (by simp) hmem)

end LowerCase

theorem lastIndexByte_eq_some {text : Bytes} {byte : UInt8} {i : Nat}
    (hlast : lastIndexByte text byte = some i) :
    ∃ before after, text = before ++ byte :: after ∧ before.length = i := by
  obtain ⟨back, hback, rfl⟩ := Option.map_eq_some_iff.mp hlast
  obtain ⟨hlt, hbyte, -⟩ := List.findIdx?_eq_some_iff_getElem.mp hback
  have hreverse : text.reverse = text.reverse.take back ++
      byte :: text.reverse.drop (back + 1) := by
    conv_lhs => rw [← List.take_append_drop back text.reverse,
      List.drop_eq_getElem_cons hlt]
    rw [eq_of_beq hbyte]
  refine ⟨(text.reverse.drop (back + 1)).reverse,
    (text.reverse.take back).reverse, ?_, ?_⟩
  · have hback := congrArg List.reverse hreverse
    simpa using hback
  · rw [List.length_reverse] at hlt
    simp
    omega

/-- Without a bracket in front the host of an address ends at its only colon. -/
theorem splitHostPort_cases {hostport : Bytes}
    (hhead : hostport.head? ≠ some openBracket) :
    (∃ err, splitHostPort hostport = .error err) ∨
    ∃ host port, hostport = host ++ colon :: port ∧ colon ∉ host ∧
      splitHostPort hostport = .ok (host, port) := by
  unfold splitHostPort
  cases hlast : lastIndexByte hostport colon with
  | none => exact Or.inl ⟨_, rfl⟩
  | some i =>
      obtain ⟨host, port, rfl, rfl⟩ := lastIndexByte_eq_some hlast
      simp only [if_neg hhead, List.take_left]
      split
      · exact Or.inl ⟨_, rfl⟩
      · next hcolon =>
          unfold splitHostPortRest
          split
          · exact Or.inl ⟨_, rfl⟩
          · split
            · exact Or.inl ⟨_, rfl⟩
            · exact Or.inr ⟨host, port, rfl, hcolon, by simp⟩

theorem hasPort_iff {host : Bytes} (hhead : host.head? ≠ some openBracket) :
    hasPort host = true ↔ host.count colon = 1 := by
  unfold hasPort
  simp only
  split
  · next hnone => simp [hnone]
  · split
    · next hone => simp [hone]
    · next hmany => simp [hhead, hmany]

theorem canonicalHost_of_not_port {toLower : Bytes → Bytes} {host : Bytes}
    (hhead : (toLower host).head? ≠ some openBracket)
    (hcount : (toLower host).count colon ≠ 1) :
    (canonicalHost toLower host).1 = stripTrailingDot (toLower host) := by
  have hport : ¬ hasPort (toLower host) = true :=
    fun hport => hcount ((hasPort_iff hhead).mp hport)
  simp only [canonicalHost, if_neg hport]

/-- With one colon the host is lost or ends before it. -/
theorem canonicalHost_of_port {toLower : Bytes → Bytes} {host : Bytes}
    (hhead : (toLower host).head? ≠ some openBracket)
    (hcount : (toLower host).count colon = 1) :
    (canonicalHost toLower host).1 = [] ∨
    ∃ name port, toLower host = name ++ colon :: port ∧ colon ∉ name ∧
      (canonicalHost toLower host).1 = stripTrailingDot name := by
  have hport : hasPort (toLower host) = true := (hasPort_iff hhead).mpr hcount
  simp only [canonicalHost, if_pos hport]
  rcases splitHostPort_cases hhead with ⟨err, hsplit⟩ |
    ⟨name, port, hname, hcolon, hsplit⟩
  · rw [hsplit]
    exact Or.inl rfl
  · rw [hsplit]
    exact Or.inr ⟨name, port, hname, hcolon, rfl⟩

theorem stripTrailingDot_cases (host : Bytes) :
    (hasSuffix host [dot] = false ∧ stripTrailingDot host = host) ∨
    host = stripTrailingDot host ++ [dot] := by
  unfold stripTrailingDot
  split
  · next hsuffix =>
      right
      obtain ⟨front, rfl⟩ := List.isSuffixOf_iff_suffix.mp hsuffix
      simp
  · next hsuffix => exact Or.inl ⟨by simpa using hsuffix, rfl⟩

/-- What `properSuffixes` lists: whatever follows a dot and has another. -/
theorem mem_properSuffixes {host suffix : Bytes} :
    suffix ∈ properSuffixes host ↔
      dot ∈ suffix ∧ ∃ front, host = front ++ dot :: suffix := by
  simp only [properSuffixes, List.mem_map, List.mem_filter, List.mem_tails,
    decide_eq_true_eq]
  constructor
  · rintro ⟨labels, ⟨⟨middle, hmiddle⟩, hlength⟩, rfl⟩
    obtain ⟨first, second, rest, rfl⟩ : ∃ first second rest,
        labels = first :: second :: rest := by
      cases labels with
      | nil => simp at hlength
      | cons first labels =>
          cases labels with
          | nil => simp at hlength
          | cons second rest => exact ⟨first, second, rest, rfl⟩
    constructor
    · rw [← List.singleton_append, joinDot_append (by simp) (by simp)]
      simp
    · obtain ⟨head, tail, hsplit⟩ :=
        List.exists_cons_of_ne_nil (List.splitOn_ne_nil dot host)
      refine ⟨joinDot (head :: middle), ?_⟩
      rw [← joinDot_append (by simp) (by simp), List.cons_append]
      conv_lhs => rw [← joinDot_splitDot host, splitDot, hsplit]
      rw [splitDot, hsplit, List.tail_cons] at hmiddle
      rw [hmiddle]
  · rintro ⟨hdot, front, rfl⟩
    refine ⟨splitDot suffix, ⟨?_, two_le_length_splitDot hdot⟩,
      joinDot_splitDot suffix⟩
    rw [splitDot_append, List.tail_append_of_ne_nil (splitDot_ne_nil front)]
    exact List.suffix_append _ _

/-- The wildcards of a host begin with the one for all that follows its first
label. -/
theorem properSuffixes_label {label suffix : Bytes} (hlabel : dot ∉ label)
    (hsuffix : dot ∈ suffix) :
    ∃ rest, properSuffixes (label ++ dot :: suffix) = suffix :: rest := by
  have hlength := two_le_length_splitDot hsuffix
  rw [properSuffixes, splitDot_label hlabel, List.tail_cons]
  cases hlabels : splitDot suffix with
  | nil => exact absurd hlabels (splitDot_ne_nil suffix)
  | cons first rest =>
      rw [hlabels] at hlength
      rw [List.tails_cons, List.filter_cons, if_pos (decide_eq_true hlength),
        List.map_cons, ← hlabels, joinDot_splitDot]
      exact ⟨_, rfl⟩

theorem head_ne_bracket {label : Bytes} (hlabel : IsLabel label)
    (rest : Bytes) : (label ++ rest).head? ≠ some openBracket := by
  obtain ⟨first, more, rfl⟩ := List.exists_cons_of_ne_nil hlabel.nonempty
  intro hhead
  rw [List.cons_append, List.head?_cons, Option.some.injEq] at hhead
  exact hlabel.bracket (hhead ▸ List.mem_cons_self)

theorem head_toLower_ne_bracket {toLower : Bytes → Bytes}
    (hlower : LowerCase toLower) {label : Bytes} (hlabel : IsLabel label)
    (suffix : Bytes) :
    (toLower (label ++ dot :: suffix)).head? ≠ some openBracket := by
  rw [hlower.append label suffix]
  exact head_ne_bracket (hlower.isLabel hlabel) _

theorem count_colon_label {label : Bytes} (hlabel : IsLabel label)
    (suffix : Bytes) :
    (label ++ dot :: suffix).count colon = suffix.count colon := by
  rw [List.count_append, List.count_eq_zero.mpr hlabel.colon, Nat.zero_add,
    List.count_cons_of_ne (by decide)]

/-- A host under a well spelled wildcard is canonical but for its label. -/
theorem SuffixSpelled.canonicalHost_eq {toLower : Bytes → Bytes}
    (hlower : LowerCase toLower) {label suffix : Bytes}
    (hlabel : IsLabel label) (hspelled : SuffixSpelled toLower suffix) :
    (canonicalHost toLower (label ++ dot :: suffix)).1 =
      toLower label ++ dot :: suffix := by
  have hlow := hlower.isLabel hlabel
  have hhost : toLower (label ++ dot :: suffix) =
      toLower label ++ dot :: suffix := by
    rw [hlower.append, hspelled.lower]
  rw [canonicalHost_of_not_port, hhost]
  · rcases stripTrailingDot_cases (toLower label ++ dot :: suffix) with
      ⟨-, hsame⟩ | htrailing
    · exact hsame
    · have hend : [dot] <:+ toLower label ++ dot :: suffix :=
        ⟨_, htrailing.symm⟩
      have hsuffix : suffix <:+ toLower label ++ dot :: suffix :=
        ⟨toLower label ++ [dot], by simp⟩
      have hdot : [dot] <:+ suffix :=
        List.suffix_of_suffix_length_le hend hsuffix
          (List.length_pos_of_mem hspelled.labels)
      have hfalse := hspelled.trailing
      rw [hasSuffix, List.isSuffixOf_iff_suffix.mpr hdot] at hfalse
      cases hfalse
  · rw [hhost]
    exact head_ne_bracket hlow _
  · rw [hhost, count_colon_label hlow]
    exact hspelled.colons

theorem prefix_of_stripTrailingDot (host : Bytes) :
    stripTrailingDot host <+: host := by
  rcases stripTrailingDot_cases host with ⟨-, hsame⟩ | htrailing
  · rw [hsame]
  · exact ⟨[dot], htrailing.symm⟩

theorem prefix_stripTrailingDot {label host : Bytes}
    (hbefore : label ++ [dot] <+: host) : label <+: stripTrailingDot host := by
  have hlength := hbefore.length_le
  rw [List.length_append, List.length_singleton] at hlength
  have hlabel : label <+: host := (List.prefix_append _ _).trans hbefore
  apply List.prefix_of_prefix_length_le hlabel (prefix_of_stripTrailingDot host)
  rcases stripTrailingDot_cases host with ⟨-, hsame⟩ | htrailing
  · rw [hsame]
    omega
  · have htotal := congrArg List.length htrailing
    rw [List.length_append, List.length_singleton] at htotal
    omega

/-- The canonical host keeps the first label or is lost. -/
theorem canonicalHost_label {toLower : Bytes → Bytes}
    (hlower : LowerCase toLower) {label : Bytes} (hlabel : IsLabel label)
    (suffix : Bytes) :
    (canonicalHost toLower (label ++ dot :: suffix)).1 = [] ∨
      toLower label <+: (canonicalHost toLower (label ++ dot :: suffix)).1 := by
  have hlow := hlower.isLabel hlabel
  have hhost := hlower.append label suffix
  have hhead := head_toLower_ne_bracket hlower hlabel suffix
  by_cases hcount : (toLower (label ++ dot :: suffix)).count colon = 1
  · rcases canonicalHost_of_port hhead hcount with
      hlost | ⟨name, port, hname, -, hcanonical⟩
    · exact Or.inl hlost
    · right
      rw [hcanonical]
      apply prefix_stripTrailingDot
      have hsplit : (toLower label ++ [dot]) ++ toLower suffix =
          name ++ colon :: port := by
        rw [← hname, hhost]
        simp
      rcases List.append_eq_append_iff.mp hsplit with
        ⟨between, hkept, -⟩ | ⟨between, hcut, hrest⟩
      · exact ⟨between, hkept.symm⟩
      · cases between with
        | nil =>
            rw [List.append_nil] at hcut
            rw [hcut]
        | cons byte rest =>
            rw [List.cons_append, List.cons.injEq] at hrest
            have hmem : colon ∈ toLower label ++ [dot] := by
              rw [hcut, hrest.1]
              simp
            rcases List.mem_append.mp hmem with h | h
            · exact absurd h hlow.colon
            · exact absurd h (by decide)
  · right
    rw [canonicalHost_of_not_port hhead hcount]
    apply prefix_stripTrailingDot
    rw [hhost]
    exact ⟨toLower suffix, by simp⟩

theorem wildcard_injective : Function.Injective wildcard :=
  List.append_right_injective (ascii "*.")

theorem mem_lookupDomains {host domain : Bytes} :
    domain ∈ lookupDomains host ↔ domain = host ∨
      (∃ suffix ∈ properSuffixes host, domain = wildcard suffix) ∨
        domain = ascii "*" := by
  simp [lookupDomains, eq_comm]

/-- What follows a label of the canonical host is spelled as it is looked up:
were it changed, or a dot or a port cut off, the host would have fewer labels or
no colon. -/
theorem suffixSpelled_of_proper {toLower : Bytes → Bytes}
    (hlower : LowerCase toLower) {label suffix : Bytes}
    (hlabel : IsLabel label)
    (hmem : suffix ∈
      properSuffixes (canonicalHost toLower (label ++ dot :: suffix)).1) :
    SuffixSpelled toLower suffix := by
  have hlow := hlower.isLabel hlabel
  have hhost := hlower.append label suffix
  have hhead := head_toLower_ne_bracket hlower hlabel suffix
  have hcolons : (toLower (label ++ dot :: suffix)).count colon =
      (toLower suffix).count colon := by
    rw [hhost, count_colon_label hlow]
  have hdots : (toLower (label ++ dot :: suffix)).count dot =
      suffix.count dot + 1 := by
    rw [hhost, List.count_append, List.count_eq_zero.mpr hlow.dot,
      List.count_cons_self, hlower.count_dot]
    omega
  obtain ⟨hdot, front, hfront⟩ := mem_properSuffixes.mp hmem
  have hfrontDots : (front ++ dot :: suffix).count dot =
      front.count dot + suffix.count dot + 1 := by
    rw [List.count_append, List.count_cons_self]
    omega
  by_cases hcount : (toLower (label ++ dot :: suffix)).count colon = 1
  · rcases canonicalHost_of_port hhead hcount with
      hlost | ⟨name, port, -, hcolon, hcanonical⟩
    · rw [hlost] at hfront
      simp at hfront
    · have hin : colon ∈ toLower suffix := by
        apply List.count_pos_iff.mp
        omega
      have hname : front ++ dot :: suffix <+: name := by
        rw [← hfront, hcanonical]
        exact prefix_of_stripTrailingDot name
      have hold := hlower.punctuation suffix colon (by simp) hin
      exact absurd (hname.subset (by simp [hold])) hcolon
  · rw [canonicalHost_of_not_port hhead hcount] at hfront
    rcases stripTrailingDot_cases (toLower (label ++ dot :: suffix)) with
      ⟨hdotless, hsame⟩ | htrailing
    · rw [hsame] at hfront
      have hnone : front.count dot = 0 := by
        rw [hfront] at hdots
        omega
      have hlower' : toLower suffix = suffix := by
        have hsplit := congrArg splitDot (hhost.symm.trans hfront)
        rw [splitDot_label hlow.dot, splitDot_label
          (List.count_eq_zero.mp hnone), List.cons.injEq] at hsplit
        have hjoin := congrArg joinDot hsplit.2
        rwa [joinDot_splitDot, joinDot_splitDot] at hjoin
      refine ⟨hdot, hlower', ?_, ?_⟩
      · rw [hcolons, hlower'] at hcount
        exact hcount
      · rw [hfront] at hdotless
        rw [← Bool.not_eq_true] at hdotless ⊢
        intro hsuffix
        apply hdotless
        obtain ⟨rest, hrest⟩ := List.isSuffixOf_iff_suffix.mp hsuffix
        apply List.isSuffixOf_iff_suffix.mpr
        exact ⟨front ++ dot :: rest, by rw [← hrest]; simp⟩
    · rw [hfront] at htrailing
      rw [htrailing, List.count_append] at hdots
      simp at hdots
      omega

/-- Only a well spelled wildcard is among the domains of a host under it. -/
theorem suffixSpelled_of_mem {toLower : Bytes → Bytes}
    (hlower : LowerCase toLower) {label suffix : Bytes}
    (hlabel : IsLabel label) (hstar : star ∉ toLower label)
    (hmem : wildcard suffix ∈
      lookupDomains (canonicalHost toLower (label ++ dot :: suffix)).1) :
    SuffixSpelled toLower suffix := by
  have hlow := hlower.isLabel hlabel
  have hhost := hlower.append label suffix
  rcases mem_lookupDomains.mp hmem with hself | ⟨other, hother, heq⟩ | hall
  · rcases canonicalHost_label hlower hlabel suffix with hlost | hkept
    · rw [hlost] at hself
      simp [wildcard, ascii] at hself
    · rw [← hself] at hkept
      obtain ⟨first, rest, hfirst⟩ := List.exists_cons_of_ne_nil hlow.nonempty
      rw [hfirst] at hkept hstar
      obtain ⟨rest', hrest'⟩ := hkept
      have hbyte : first = star := (List.cons.injEq _ _ _ _ ▸ hrest').1
      exact absurd (hbyte ▸ List.mem_cons_self) hstar
  · exact suffixSpelled_of_proper hlower hlabel (wildcard_injective heq ▸ hother)
  · have hlength := congrArg List.length hall
    simp [wildcard, ascii] at hlength

end Frp
