import CloudEnvelope.Failure

/-!
# Header patterns

A pattern selects header keys by a body: one key, all keys with a given start, end or fragment, or
every key. A token spells a pattern: `*` stands for any text at the start or the end of the body,
and a `!` in front negates. Negation matters to classification only; `accepts` ignores it.

`HeaderPattern.token` spells a pattern again, and `Body.overlaps` says whether some key could
satisfy two bodies.
-/

namespace CloudEnvelope

/-- What a pattern asks of a key. -/
inductive Body where
  | exactly (fragment : Text)
  | startingWith (fragment : Text)
  | endingWith (fragment : Text)
  | containing (fragment : Text)
  | any
deriving DecidableEq, Repr

namespace Body

/-- The key satisfies the body. -/
def accepts : Body → Text → Bool
  | exactly f, key => key == f
  | startingWith f, key => key.startsWith f
  | endingWith f, key => key.endsWith f
  | containing f, key => key.holds f
  | any, _ => true

/-- Some key satisfies both bodies. Where neither asks for one key nor both for the same end, the
two fragments one after the other are such a key. -/
def overlaps : Body → Body → Bool
  | exactly f, other => other.accepts f
  | body, exactly f => body.accepts f
  | startingWith f, startingWith g => f.startsWith g || g.startsWith f
  | endingWith f, endingWith g => f.endsWith g || g.endsWith f
  | _, _ => true

/-- The text of the body between its wildcards. -/
def fragment : Body → Text
  | exactly f => f
  | startingWith f => f
  | endingWith f => f
  | containing f => f
  | any => []

/-- The body with its wildcards. -/
def spelled : Body → Text
  | exactly f => f
  | startingWith f => f ++ "*"
  | endingWith f => "*" ++ f
  | containing f => "*" ++ f ++ "*"
  | any => "*"

/-- The body of a token after its negation. -/
def parse (token body : Text) : Except ConfigurationIssue Body :=
  let star : CodePoint := .scalar '*'
  if body = [] then .error (.emptyBody token)
  else if body = [star] then .ok any
  else
    let leading := body.head? == some star
    let trailing := body.getLast? == some star
    let inner := if leading then body.drop 1 else body
    let fragment := if trailing then inner.dropLast else inner
    if fragment.isEmpty || fragment.contains star then .error (.misplacedWildcard token)
    else if fragment.head? == some (.scalar '!') then .error (.misplacedNegation token)
    else .ok <| match leading, trailing with
      | true, true => containing fragment
      | true, false => endingWith fragment
      | false, true => startingWith fragment
      | false, false => exactly fragment

end Body

/-- A body, perhaps negated. -/
structure HeaderPattern where
  negated : Bool
  body : Body
deriving DecidableEq, Repr

namespace HeaderPattern

/-- The key satisfies the body of the pattern. -/
def accepts (p : HeaderPattern) (key : Text) : Bool := p.body.accepts key

/-- Some key satisfies the bodies of both patterns. -/
def overlaps (p q : HeaderPattern) : Bool := p.body.overlaps q.body

/-- The token that spells the pattern. -/
def token (p : HeaderPattern) : Text := if p.negated then "!" ++ p.body.spelled else p.body.spelled

/-- The pattern that a token spells. -/
def parse (token : Text) (allowNegation : Bool := true) : Except ConfigurationIssue HeaderPattern :=
  match token with
  | .scalar '!' :: body =>
    if allowNegation then do
      let body ← Body.parse token body
      .ok ⟨true, body⟩
    else .error (.negationNotAllowed token)
  | _ => do
    let body ← Body.parse token token
    .ok ⟨false, body⟩

/-- The pattern that a value spells, which has to be a text. -/
def ofValue (allowNegation : Bool) : Value → Except ConfigurationIssue HeaderPattern
  | .text token => parse token allowNegation
  | v => .error (.patternNotText v.typeName)

end HeaderPattern

end CloudEnvelope
