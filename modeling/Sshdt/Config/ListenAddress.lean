import Sshdt.Config.SshdConfig
import Sshdt.Lib.NetLiterals
import Sshdt.Lib.Numeral

/-
  The values of `ListenAddress` (`parse_listen_address` in
  `src/sshd_config.rs`).

  The documented forms are an address, an IPv4 address with
  a port and an IPv6 address in brackets, with a port or
  without. The code reads what stands in the place of the
  address and does not look at the rest of the value, so it
  also takes an address out of other values. `Misread` has
  all of these.

  The address literals are those that `IpAddr` parses.

  Key definitions include:
    * `SshdConfig.ListenAddress`
    * `SshdConfig.Misread`
    * `SshdConfig.ReadByGrammar`

  Key theorems include:
    * `SshdConfig.parseListenAddress_of_grammar`
    * `SshdConfig.grammar_or_misread`
    * `SshdConfig.not_listenAddress_of_misread`
    * `SshdConfig.readByGrammar_iff`
-/

------------------------------------------------------------
-- The Documented Forms
------------------------------------------------------------

namespace Sshdt

namespace SshdConfig

/- A decimal port of at most 65535. -/
def DecimalPort
    (t : Text) : Prop :=
  ∃ numeral : Numeral, numeral.plus = false ∧
    numeral.text = t ∧ numeral.value ≤ 65535

/- Nothing, or a colon and a port. -/
def PortSuffix
    (t : Text) : Prop :=
  t = [] ∨ ∃ port, DecimalPort port ∧ t = ':' :: port

/- The values and the addresses they stand for. -/
inductive ListenAddress : Text → IpAddr → Prop
| literal
    (t : Text)
    (addr : IpAddr)
    (hLiteral : IpAddr.parse t = some addr) :
    ListenAddress t addr
| withPort
    (t port : Text)
    (addr : BitVec 32)
    (hLiteral : IpAddr.parse t = some (.v4 addr))
    (hPort : DecimalPort port) :
    ListenAddress (t ++ ':' :: port) (.v4 addr)
| bracketed
    (t rest : Text)
    (addr : BitVec 128)
    (hLiteral : IpAddr.parse t = some (.v6 addr))
    (hRest : PortSuffix rest) :
    ListenAddress ('[' :: (t ++ ']' :: rest)) (.v6 addr)

/- No whitespace at either end. -/
structure NoOuterWhitespace
    (t : Text) : Prop where
  first :
    ∀ c, t.head? = some c → Text.isWhitespace c = false
  last :
    ∀ c, t.getLast? = some c → Text.isWhitespace c = false

/-
  What the forms promise of a value: exactly its address is
  read. A line with such a value binds the address, and
  after lines without an error a line with any other value
  makes `parse` report it.
-/
structure ReadByGrammar
    (value : Text) : Prop where
  address :
    ∀ addr, parseListenAddress value = some addr ↔
      ListenAddress value addr
  bound :
    ∀ addr, ListenAddress value addr →
      ∀ host st line n key,
        splitLine line = some (key, value) →
        Keyword.ofText key = .listenAddress →
        parseLine host st (line, n) =
          .ok { st with
            config := { st.config with bind := addr } }
  reported :
    (∀ addr, ¬ ListenAddress value addr) →
      ∀ host input before line after st key,
        Text.lines input = before ++ line :: after →
        before.zipIdx.foldlM (parseLine host)
            ParseState.initial =
          .ok st →
        splitLine line = some (key, value) →
        Keyword.ofText key = .listenAddress →
        parse host input =
          .error (invalid before.length "ListenAddress"
            value)

end SshdConfig

end Sshdt

------------------------------------------------------------
-- The Values That Are Misread
------------------------------------------------------------

namespace Sshdt

namespace SshdConfig

/-
  The values from which an address is taken although they
  have none of the forms.
-/
inductive Misread : Text → Prop
-- The bracket is not closed.
| unclosed
    (t : Text)
    (addr : IpAddr)
    (hLiteral : IpAddr.parse t = some addr) :
    Misread ('[' :: t)
-- The address in the brackets is an IPv4 address.
| bracketedV4
    (t rest : Text)
    (addr : BitVec 32)
    (hLiteral : IpAddr.parse t = some (.v4 addr)) :
    Misread ('[' :: (t ++ ']' :: rest))
-- What follows the brackets is no port.
| afterBracket
    (t rest : Text)
    (addr : BitVec 128)
    (hLiteral : IpAddr.parse t = some (.v6 addr))
    (hRest : ¬ PortSuffix rest) :
    Misread ('[' :: (t ++ ']' :: rest))
-- More than an IPv6 address, without brackets.
| longV6
    (t rest : Text)
    (addr : BitVec 128)
    (hLiteral : IpAddr.parse t = some (.v6 addr))
    (hRest : ':' ∉ rest)
    (hWhole : IpAddr.parse (t ++ ':' :: rest) = none) :
    Misread (t ++ ':' :: rest)
-- What follows an IPv4 address is no port.
| afterV4
    (t rest : Text)
    (addr : BitVec 32)
    (hLiteral : IpAddr.parse t = some (.v4 addr))
    (hRest : ':' ∉ rest)
    (hPort : ¬ DecimalPort rest) :
    Misread (t ++ ':' :: rest)

end SshdConfig

end Sshdt

------------------------------------------------------------
-- Where The Address Is Read
------------------------------------------------------------

namespace Sshdt

namespace SshdConfig

/- After a bracket, up to the next one. -/
theorem parseListenAddress_bracket
    {rest : Text}
    (hOuter : NoOuterWhitespace ('[' :: rest)) :
    parseListenAddress ('[' :: rest) =
      IpAddr.parse ((rest.splitOn ']').head?.getD []) := by
  rw [parseListenAddress,
    Text.trim_eq_self hOuter.first hOuter.last]
  simp [List.dropPrefix?]

/- Otherwise the whole value, or up to its last colon. -/
theorem parseListenAddress_plain
    {value : Text}
    (hOuter : NoOuterWhitespace value)
    (hFirst : value.head? ≠ some '[') :
    parseListenAddress value =
      (IpAddr.parse value).or
        ((Text.rsplitOnce ':' value).bind
          fun parts => IpAddr.parse parts.1) := by
  have hPrefix : value.dropPrefix? ['['] = none := by
    cases value with
    | nil => rfl
    | cons c value =>
        have hNe : c ≠ '[' := by simpa using hFirst
        simp [List.dropPrefix?, hNe]
  rw [parseListenAddress,
    Text.trim_eq_self hOuter.first hOuter.last, hPrefix]
  dsimp only
  cases IpAddr.parse value with
  | some addr => rfl
  | none =>
      cases Text.rsplitOnce ':' value with
      | none => rfl
      | some parts => rfl

theorem head?_splitOn_closed
    {t : Text}
    (hFree : ']' ∉ t)
    (rest : Text) :
    ((t ++ ']' :: rest).splitOn ']').head?.getD [] = t := by
  rw [List.splitOn_append_cons_self_of_not_mem hFree]
  rfl

theorem head?_splitOn_unclosed
    {t : Text}
    (hFree : ']' ∉ t) :
    (t.splitOn ']').head?.getD [] = t := by
  rw [List.splitOn_eq_singleton hFree]
  rfl

/- Neither bracket is in a literal. -/
theorem bracket_notMem
    {t : Text}
    {addr : IpAddr}
    (hLiteral : IpAddr.parse t = some addr) :
    '[' ∉ t ∧ ']' ∉ t := by
  have hChars := IpAddr.literalChar_of_parse hLiteral
  refine ⟨fun hMem => ?_, fun hMem => ?_⟩
  · have hNot : ¬ Net.LiteralChar '[' := by
      simp [Net.LiteralChar, Net.IsDigit, Net.toDigit]
    exact hNot (hChars _ hMem)
  · have hNot : ¬ Net.LiteralChar ']' := by
      simp [Net.LiteralChar, Net.IsDigit, Net.toDigit]
    exact hNot (hChars _ hMem)

/- A value that starts with a literal has no bracket first. -/
theorem head?_ne_bracket
    {t : Text}
    {addr : IpAddr}
    (hLiteral : IpAddr.parse t = some addr)
    (rest : Text) :
    (t ++ rest).head? ≠ some '[' := by
  cases t with
  | nil => exact absurd rfl (IpAddr.ne_nil_of_parse hLiteral)
  | cons c t =>
      have hFree := (bracket_notMem hLiteral).1
      intro hFirst
      simp only [List.cons_append, List.head?_cons,
        Option.some.injEq] at hFirst
      simp [hFirst] at hFree

/- With a colon after it, an IPv4 literal is none. -/
theorem parse_v4_colon
    {t : Text}
    {addr : BitVec 32}
    (hLiteral : IpAddr.parse t = some (.v4 addr))
    (rest : Text) :
    IpAddr.parse (t ++ ':' :: rest) = none :=
  IpAddr.parse_v4_append hLiteral Net.endsNumber_colon
    (List.cons_ne_nil ':' rest)

/- The literal in closed brackets is read. -/
theorem parseListenAddress_closed
    {t rest : Text}
    {addr : IpAddr}
    (hOuter : NoOuterWhitespace ('[' :: (t ++ ']' :: rest)))
    (hLiteral : IpAddr.parse t = some addr) :
    parseListenAddress ('[' :: (t ++ ']' :: rest)) =
      some addr := by
  rw [parseListenAddress_bracket hOuter,
    head?_splitOn_closed (bracket_notMem hLiteral).2]
  exact hLiteral

/- The literal before the last colon is read. -/
theorem parseListenAddress_colon
    {t rest : Text}
    {addr : IpAddr}
    (hOuter : NoOuterWhitespace (t ++ ':' :: rest))
    (hLiteral : IpAddr.parse t = some addr)
    (hRest : ':' ∉ rest)
    (hWhole : IpAddr.parse (t ++ ':' :: rest) = none) :
    parseListenAddress (t ++ ':' :: rest) = some addr := by
  have hFirst := head?_ne_bracket hLiteral (':' :: rest)
  rw [parseListenAddress_plain hOuter hFirst, hWhole,
    Text.rsplitOnce_append hRest]
  exact hLiteral

theorem DecimalPort.colon_notMem
    {port : Text}
    (hPort : DecimalPort port) :
    ':' ∉ port := by
  rcases hPort with ⟨numeral, hPlus, rfl, -⟩
  have hDigit : ∀ d, Numeral.digitChar d ≠ ':' := by decide
  simp [Numeral.text, hPlus, hDigit]

end SshdConfig

end Sshdt

------------------------------------------------------------
-- Values In The Grammar
------------------------------------------------------------

namespace Sshdt

namespace SshdConfig

/- The address of every form is read. -/
theorem parseListenAddress_of_grammar
    {value : Text}
    {addr : IpAddr}
    (hOuter : NoOuterWhitespace value)
    (hForm : ListenAddress value addr) :
    parseListenAddress value = some addr := by
  cases hForm with
  | literal _ _ hLiteral =>
      have hFirst := head?_ne_bracket hLiteral []
      rw [List.append_nil] at hFirst
      rw [parseListenAddress_plain hOuter hFirst, hLiteral]
      rfl
  | withPort t port addr hLiteral hPort =>
      exact parseListenAddress_colon hOuter hLiteral
        hPort.colon_notMem (parse_v4_colon hLiteral port)
  | bracketed t rest addr hLiteral hRest =>
      exact parseListenAddress_closed hOuter hLiteral

end SshdConfig

end Sshdt

------------------------------------------------------------
-- Values From Which An Address Is Read
------------------------------------------------------------

namespace Sshdt

namespace SshdConfig

/- A bracketed text is closed somewhere or nowhere. -/
theorem closed_or_unclosed
    (rest : Text) :
    ']' ∉ rest ∨
      ∃ t more, rest = t ++ ']' :: more ∧ ']' ∉ t := by
  by_cases hClosed : ']' ∈ rest
  · rcases List.eq_append_cons_of_mem hClosed with
      ⟨t, more, hRest, hFree⟩
    exact .inr ⟨t, more, hRest, hFree⟩
  · exact .inl hClosed

theorem grammar_or_misread_bracket
    {rest : Text}
    {addr : IpAddr}
    (hOuter : NoOuterWhitespace ('[' :: rest))
    (hParse : parseListenAddress ('[' :: rest) = some addr) :
    ListenAddress ('[' :: rest) addr ∨
      Misread ('[' :: rest) := by
  rw [parseListenAddress_bracket hOuter] at hParse
  rcases closed_or_unclosed rest with
    hFree | ⟨t, more, rfl, hFree⟩
  · rw [head?_splitOn_unclosed hFree] at hParse
    exact .inr (.unclosed rest addr hParse)
  · rw [head?_splitOn_closed hFree] at hParse
    cases addr with
    | v4 addr =>
        exact .inr (.bracketedV4 t more addr hParse)
    | v6 addr =>
        by_cases hMore : PortSuffix more
        · exact .inl (.bracketed t more addr hParse hMore)
        · exact .inr (.afterBracket t more addr hParse hMore)

theorem grammar_or_misread_plain
    {value : Text}
    {addr : IpAddr}
    (hOuter : NoOuterWhitespace value)
    (hFirst : value.head? ≠ some '[')
    (hParse : parseListenAddress value = some addr) :
    ListenAddress value addr ∨ Misread value := by
  rw [parseListenAddress_plain hOuter hFirst] at hParse
  cases hWhole : IpAddr.parse value with
  | some addr' =>
      rw [hWhole] at hParse
      cases hParse
      exact .inl (.literal value addr hWhole)
  | none =>
      rw [hWhole, Option.none_or] at hParse
      rcases Option.bind_eq_some_iff.mp hParse with
        ⟨⟨t, rest⟩, hSplit, hLiteral⟩
      rcases Text.rsplitOnce_eq_some hSplit with
        ⟨rfl, hRest⟩
      cases addr with
      | v4 addr =>
          by_cases hPort : DecimalPort rest
          · exact .inl (.withPort t rest addr hLiteral hPort)
          · exact .inr
              (.afterV4 t rest addr hLiteral hRest hPort)
      | v6 addr =>
          exact .inr
            (.longV6 t rest addr hLiteral hRest hWhole)

/- Whatever is read has one of the forms or is misread. -/
theorem grammar_or_misread
    {value : Text}
    {addr : IpAddr}
    (hOuter : NoOuterWhitespace value)
    (hParse : parseListenAddress value = some addr) :
    ListenAddress value addr ∨ Misread value := by
  by_cases hFirst : value.head? = some '['
  · cases value with
    | nil => cases hFirst
    | cons c rest =>
        cases hFirst
        exact grammar_or_misread_bracket hOuter hParse
  · exact grammar_or_misread_plain hOuter hFirst hParse

/- From a misread value an address is read. -/
theorem parseListenAddress_of_misread
    {value : Text}
    (hOuter : NoOuterWhitespace value)
    (hMisread : Misread value) :
    ∃ addr, parseListenAddress value = some addr := by
  cases hMisread with
  | unclosed t addr hLiteral =>
      have hFree := (bracket_notMem hLiteral).2
      rw [parseListenAddress_bracket hOuter,
        head?_splitOn_unclosed hFree]
      exact ⟨addr, hLiteral⟩
  | bracketedV4 t rest addr hLiteral =>
      exact ⟨_, parseListenAddress_closed hOuter hLiteral⟩
  | afterBracket t rest addr hLiteral hRest =>
      exact ⟨_, parseListenAddress_closed hOuter hLiteral⟩
  | longV6 t rest addr hLiteral hRest hWhole =>
      exact ⟨_, parseListenAddress_colon hOuter hLiteral hRest
        hWhole⟩
  | afterV4 t rest addr hLiteral hRest hPort =>
      exact ⟨_, parseListenAddress_colon hOuter hLiteral hRest
        (parse_v4_colon hLiteral rest)⟩

end SshdConfig

end Sshdt

------------------------------------------------------------
-- Misread Values Have No Form
------------------------------------------------------------

namespace Sshdt

namespace SshdConfig

/- A form that starts with a bracket is the bracketed one. -/
theorem bracketed_of_grammar
    {rest : Text}
    {addr : IpAddr}
    (hForm : ListenAddress ('[' :: rest) addr) :
    ∃ t more addr', rest = t ++ ']' :: more ∧
      IpAddr.parse t = some (.v6 addr') ∧
        PortSuffix more := by
  generalize hValue : '[' :: rest = value at hForm
  cases hForm with
  | literal _ _ hLiteral =>
      subst hValue
      have hFirst := head?_ne_bracket hLiteral []
      simp at hFirst
  | withPort t port addr' hLiteral hPort =>
      have hFirst := head?_ne_bracket hLiteral (':' :: port)
      simp [← hValue] at hFirst
  | bracketed t more addr' hLiteral hMore =>
      cases hValue
      exact ⟨t, more, addr', rfl, hLiteral, hMore⟩

/- A form with a colon after a literal is an IPv4 address. -/
theorem withPort_of_grammar
    {t rest : Text}
    {literal addr : IpAddr}
    (hLiteral : IpAddr.parse t = some literal)
    (hRest : ':' ∉ rest)
    (hWhole : IpAddr.parse (t ++ ':' :: rest) = none)
    (hForm : ListenAddress (t ++ ':' :: rest) addr) :
    (∃ addr', literal = .v4 addr') ∧ DecimalPort rest := by
  generalize hValue : t ++ ':' :: rest = value at hForm
  cases hForm with
  | literal _ _ hOther =>
      rw [← hValue, hWhole] at hOther
      cases hOther
  | withPort t' port addr' hLiteral' hPort =>
      have hSplit := congrArg (Text.rsplitOnce ':') hValue
      rw [Text.rsplitOnce_append hRest,
        Text.rsplitOnce_append hPort.colon_notMem] at hSplit
      cases hSplit
      rw [hLiteral] at hLiteral'
      exact ⟨⟨addr', Option.some.inj hLiteral'⟩, hPort⟩
  | bracketed t' more addr' hLiteral' hMore =>
      have hFirst := head?_ne_bracket hLiteral (':' :: rest)
      simp [hValue] at hFirst

/- The first closing bracket is where it is. -/
theorem closed_unique
    {t t' rest rest' : Text}
    (hFree : ']' ∉ t)
    (hFree' : ']' ∉ t')
    (hSame : t ++ ']' :: rest = t' ++ ']' :: rest') :
    t = t' ∧ rest = rest' := by
  have hHead := congrArg
    (fun text => (text.splitOn ']').head?.getD []) hSame
  simp only [head?_splitOn_closed hFree,
    head?_splitOn_closed hFree'] at hHead
  subst hHead
  have hTail := List.append_cancel_left hSame
  exact ⟨rfl, (List.cons.inj hTail).2⟩

theorem not_listenAddress_of_misread
    {value : Text}
    {addr : IpAddr}
    (hMisread : Misread value) :
    ¬ ListenAddress value addr := by
  intro hForm
  cases hMisread with
  | unclosed t literal hLiteral =>
      rcases bracketed_of_grammar hForm with
        ⟨t', more, addr', rfl, -, -⟩
      exact (bracket_notMem hLiteral).2 (by simp)
  | bracketedV4 t rest literal hLiteral =>
      rcases bracketed_of_grammar hForm with
        ⟨t', more, addr', hSame, hLiteral', -⟩
      rcases closed_unique (bracket_notMem hLiteral).2
          (bracket_notMem hLiteral').2 hSame with ⟨rfl, -⟩
      rw [hLiteral] at hLiteral'
      cases hLiteral'
  | afterBracket t rest literal hLiteral hRest =>
      rcases bracketed_of_grammar hForm with
        ⟨t', more, addr', hSame, hLiteral', hMore⟩
      rcases closed_unique (bracket_notMem hLiteral).2
          (bracket_notMem hLiteral').2 hSame with ⟨-, rfl⟩
      exact hRest hMore
  | longV6 t rest literal hLiteral hRest hWhole =>
      rcases withPort_of_grammar hLiteral hRest hWhole hForm
        with ⟨⟨addr', hV4⟩, -⟩
      cases hV4
  | afterV4 t rest literal hLiteral hRest hPort =>
      exact hPort (withPort_of_grammar hLiteral hRest
        (parse_v4_colon hLiteral rest) hForm).2

end SshdConfig

end Sshdt

------------------------------------------------------------
-- The Directive
------------------------------------------------------------

namespace Sshdt

namespace SshdConfig

/- A line with the directive binds what its value gives. -/
theorem parseLine_listenAddress
    {line key value : Text}
    (hSplit : splitLine line = some (key, value))
    (hKey : Keyword.ofText key = .listenAddress)
    (host : Host)
    (st : ParseState)
    (n : Nat) :
    parseLine host st (line, n) =
      (orInvalid (parseListenAddress value) n
        "ListenAddress" value).map fun bind =>
          { st with config := { st.config with bind } } := by
  rw [parseLine, hSplit]
  dsimp only
  rw [hKey]
  simp only [applyDirective]
  cases parseListenAddress value with
  | none => rfl
  | some addr => rfl

/- The first line with an error decides the result. -/
theorem parse_of_line_error
    {host : Host}
    {input line : Text}
    {before after : List Text}
    {st : ParseState}
    {e : Error}
    (hLines : Text.lines input = before ++ line :: after)
    (hBefore :
      before.zipIdx.foldlM (parseLine host)
          ParseState.initial =
        .ok st)
    (hLine :
      parseLine host st (line, before.length) = .error e) :
    parse host input = .error e := by
  have hFold :
      (Text.lines input).zipIdx.foldlM (parseLine host)
          ParseState.initial =
        .error e := by
    rw [hLines, List.zipIdx_append, List.foldlM_append,
      hBefore, List.zipIdx_cons, Nat.zero_add]
    change List.foldlM (parseLine host) st _ = _
    rw [List.foldlM_cons, hLine]
    rfl
  rw [parse, hFold]
  rfl

/-
  A value is read by the grammar exactly when it is not one
  of the misread ones.
-/
theorem readByGrammar_iff
    {value : Text}
    (hOuter : NoOuterWhitespace value) :
    ReadByGrammar value ↔ ¬ Misread value := by
  constructor
  · intro hRead hMisread
    rcases parseListenAddress_of_misread hOuter hMisread
      with ⟨addr, hParse⟩
    exact not_listenAddress_of_misread hMisread
      ((hRead.address addr).mp hParse)
  · intro hNot
    have hAddress :
        ∀ addr, parseListenAddress value = some addr ↔
          ListenAddress value addr := by
      intro addr
      constructor
      · intro hParse
        rcases grammar_or_misread hOuter hParse with
          hForm | hMisread
        · exact hForm
        · exact absurd hMisread hNot
      · exact parseListenAddress_of_grammar hOuter
    refine ⟨hAddress, ?_, ?_⟩
    · intro addr hForm host st line n key hSplit hKey
      rw [parseLine_listenAddress hSplit hKey,
        (hAddress addr).mpr hForm]
      rfl
    · intro hNone host input before line after st key hLines
        hBefore hSplit hKey
      have hParse : parseListenAddress value = none := by
        rw [Option.eq_none_iff_forall_ne_some]
        intro addr hParse
        exact hNone addr ((hAddress addr).mp hParse)
      apply parse_of_line_error hLines hBefore
      rw [parseLine_listenAddress hSplit hKey, hParse]
      rfl

/- The bracketed form with a port. -/
def bracketedValue : Text :=
  ['[', ':', ':', '1', ']', ':', '2', '2']

theorem bracketedValue_read :
    ReadByGrammar bracketedValue := by
  have hPort : DecimalPort ['2', '2'] :=
    ⟨⟨false, [2, 2], by decide⟩, rfl, rfl, by decide⟩
  have hForm : ListenAddress bracketedValue (.v6 1) :=
    .bracketed [':', ':', '1'] [':', '2', '2'] 1
      (by decide) (.inr ⟨_, hPort, rfl⟩)
  have hOuter : NoOuterWhitespace bracketedValue := by
    refine ⟨?_, ?_⟩
    · intro c hFirst
      cases hFirst
      decide
    · intro c hLast
      cases hLast
      decide
  exact (readByGrammar_iff hOuter).mpr fun hMisread =>
    not_listenAddress_of_misread hMisread hForm

/- An IPv6 address with a digit too many in its last group. -/
def longGroup : Text :=
  [':', ':', '1', ':', '1', '2', '3', '4', '5']

/- A host with nothing on it. -/
def emptyHost : Host where
  readToString := fun _ => none
  pathExists := fun _ => false
  isDir := fun _ => false
  homeDir := none
  envVar := fun _ => none

theorem longGroup_bound :
    NoOuterWhitespace longGroup ∧
      parseListenAddress longGroup = some (.v6 1) ∧
      (∀ addr, ¬ ListenAddress longGroup addr) ∧
      (parse emptyHost
        ("ListenAddress ".toList ++ longGroup)).map
          (fun config => config.bind) =
        .ok (.v6 1) := by
  have hMisread : Misread longGroup :=
    .longV6 [':', ':', '1'] ['1', '2', '3', '4', '5'] 1
      (by decide) (by decide) (by decide)
  refine ⟨⟨?_, ?_⟩, by decide,
    fun addr => not_listenAddress_of_misread hMisread,
    by decide +kernel⟩
  · intro c hFirst
    cases hFirst
    decide
  · intro c hLast
    cases hLast
    decide

end SshdConfig

end Sshdt
