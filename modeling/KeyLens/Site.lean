import KeyLens.Declaration
import KeyLens.Host
import KeyLens.NamespaceOption
import KeyLens.Selector

/-!
# Translation sites

A node is a translation site if it is a call of `t` or of a member `t`, or a tag `Trans` with the
attribute `i18nKey`. What a site asks for is a key and the namespaces in which to look for it.
-/

namespace KeyLens

/-- A node that asks for a translation. -/
inductive Site where
  /-- `t(first, options)` with the texts of the two arguments, where they are given. -/
  | call (first options : Option String) (span : Span)
  /-- `<Trans i18nKey="rawKey">`; none if the attribute is no plain string. -/
  | tag (rawKey : Option String) (span : Span)
  deriving Repr, DecidableEq

/-- What a site asks for. -/
structure CallInfo where
  /-- The key to look up. -/
  key : Key
  /-- Where to look for it. -/
  namespaces : Namespaces
  /-- The span of the site. -/
  span : Span
  deriving DecidableEq

/-- A key text split at its first colon into a namespace and a key. A text without a colon, or
with one at its start, is all key. -/
def splitNamespace (raw : String) : Option String × String :=
  let before := raw.toList.takeWhile (· != ':')
  match raw.toList.dropWhile (· != ':') with
  | [] => (none, raw)
  | _ :: after =>
    if before = [] then (none, raw) else (some (String.ofList before), String.ofList after)

namespace Site

/-- Whether a callee text is `t` or ends in a member `t`. -/
def isTranslator (callee : String) : Bool :=
  callee == "t" || ['t', '.'].isPrefixOf callee.toList.reverse

/-- The site that a node is, if it is one. -/
def ofNode? : Node → Option Site
  | .call callee arguments span =>
    if isTranslator callee then some (.call arguments[0]? arguments[1]? span) else none
  | .tag name attributes span =>
    if name = "Trans" then
      (attributes.find? (·.name = "i18nKey")).map fun found => .tag found.value span
    else none

/-- The span of the node that a site is. -/
def span : Site → Span
  | .call _ _ span => span
  | .tag _ span => span

/-- The key of a site, with the namespace that the site itself names. -/
def keyAndNamespace? (tolerance : Selector.Tolerance) : Site → Option (Key × Option String)
  | .call first options _ =>
    first.bind fun text => (Selector.read tolerance text).map fun key =>
      (key, options.bind NamespaceOption.read)
  | .tag rawKey _ =>
    rawKey.bind fun raw => (Key.ofText? (splitNamespace raw).2).map fun key =>
      (key, (splitNamespace raw).1)

/-- What a site asks for below the text `preceding`. Its own namespace goes before the declared
ones, and those before `fallback`. -/
def info? (preceding fallback : String) (tolerance : Selector.Tolerance) (site : Site) :
    Option CallInfo :=
  (site.keyAndNamespace? tolerance).bind fun (key, own) =>
    (own.bind Namespaces.single? <|>
      (Declaration.ambient? preceding <|> Namespaces.single? fallback)).map fun namespaces =>
        ⟨key, namespaces, site.span⟩

/-- A site covers what its node covers. -/
theorem span_of_ofNode? {node : Node} {site : Site} (h : ofNode? node = some site) :
    site.span = node.span := by
  cases node with
  | call callee arguments span =>
    simp only [ofNode?] at h
    split at h <;> cases h
    rfl
  | tag name attributes span =>
    simp only [ofNode?] at h
    split at h
    · obtain ⟨found, -, rfl⟩ := Option.map_eq_some_iff.1 h
      rfl
    · cases h

end Site

namespace Host

/-- The translation sites of a host in document order. -/
def sites (host : Host) : List Site :=
  host.nodes.filterMap Site.ofNode?

/-- The innermost translation site around `offset`. -/
def siteAt? (host : Host) (offset : Nat) : Option Site :=
  (host.ancestors offset).findSome? Site.ofNode?

/-- What a site of a host asks for. -/
def infoOf? (host : Host) (fallback : String) (tolerance : Selector.Tolerance) (site : Site) :
    Option CallInfo :=
  site.info? (host.preceding site.span.start) fallback tolerance

/-- What the innermost translation site around `offset` asks for. -/
def infoAt? (host : Host) (offset : Nat) (fallback : String) (tolerance : Selector.Tolerance) :
    Option CallInfo :=
  (host.siteAt? offset).bind (host.infoOf? fallback tolerance)

end Host

end KeyLens
