import LivePage.Expr.Source
import LivePage.Json.Reader

/-!
# Evaluation by scripts

An expression may also be evaluated as a script, by an engine that is attached to the library. The
engine always runs the same script (`evaluationScript`), with three texts as global variables: the
visible values as an object, the names that are loading, and the expression. It answers with a text
whose first letters say what it is.

* `ScriptEngine`: what is asked of an engine.
* `ScriptEngine.evaluate`: the value of an expression by an engine.
* `ScriptEngine.ofAnswer`: the value or the failure that an answer stands for.
-/

namespace LivePage

/-- An engine for scripts. Every run has global variables of its own and leaves nothing to the next
one, so an answer depends on nothing but the texts and the script. Expressions that ask for the time
or for a random number are left aside. -/
structure ScriptEngine where
  /-- Runs a script with texts as global variables: the text that it returns, or the failure. -/
  run : List (String × String) → String → Except String String
  /-- The message about a text that is no JSON. -/
  refusal : String → String

namespace Context

/-- The visible values. -/
def values (ctx : Context) : KeyMap Json :=
  ctx.flatten.filterMap fun _ binding =>
    match binding with
    | .value j => some j
    | _ => none

/-- The visible names that are loading. -/
def loading (ctx : Context) : List String :=
  ctx.flatten.entries.filterMap fun e =>
    match e.2 with
    | .pending => some e.1
    | _ => none

end Context

/-- Evaluates `__expr` where the fields of `__scope_json` and the names of `__pending_json` are
variables. It returns `u` for undefined, `v` and a JSON text for a value, and for a failure `eR` or
`eS` and a message. -/
def evaluationScript : String := "
(function () \x7b
    try \x7b
        var __scope = JSON.parse(__scope_json);
        var __pending = JSON.parse(__pending_json);
        for (var i = 0; i < __pending.length; i++) \x7b
            __scope[__pending[i]] = undefined;
        \x7d
        var __r;
        with (__scope) \x7b
            __r = eval(__expr);
        \x7d
        if (__r === undefined) return \"u\";
        var __s = JSON.stringify(__r);
        return __s === undefined ? \"u\" : \"v\" + __s;
    \x7d catch (e) \x7b
        var kind = e && e.name === \"ReferenceError\" ? \"R\" : \"S\";
        var msg = e && e.message !== undefined ? e.message : String(e);
        return \"e\" + kind + msg;
    \x7d
\x7d)()
"

/-- The name that a message is about: its first word, or all of it if it is blank, without the
quotes around. -/
def nameInMessage (message : List Char) : String :=
  let word := (Text.trimStart message).takeWhile fun c => !Text.isWhiteSpace c
  let name := (if word.isEmpty then message else word).dropWhile (· == '\x27')
  String.ofList (name.reverse.dropWhile (· == '\x27')).reverse

namespace ScriptEngine

/-- An engine that runs no script. -/
def absent : ScriptEngine := ⟨fun _ _ => .error "no engine for scripts", id⟩

variable (engine : ScriptEngine)

/-- What an answer of the script stands for. -/
def ofAnswer (answer : String) : Except EvalError Value :=
  match answer.toList with
  | ['u'] => .ok .undefined
  | 'v' :: json =>
    match (RawJson.parse? (String.ofList json)).bind RawJson.value? with
    | some j => .ok (.json j)
    | none => .error (.script (engine.refusal (String.ofList json)))
  | 'e' :: 'R' :: message => .error (.unresolved (nameInMessage message))
  | 'e' :: 'S' :: message => .error (.script (String.ofList message))
  | _ => .error (.script ("unexpected engine result `" ++ answer ++ "`"))

/-- The value of an expression in a context, by an engine for scripts. -/
def evaluate (ctx : Context) (expression : String) : Except EvalError Value :=
  let globals := [("__scope_json", (Json.ofMap ctx.values).compact),
    ("__pending_json", (Json.arr (ctx.loading.map .str)).compact), ("__expr", expression)]
  match engine.run globals evaluationScript with
  | .ok answer => engine.ofAnswer answer
  | .error message => .error (.script message)

end ScriptEngine

/-- The evaluator that leaves expressions to an engine for scripts. -/
def Evaluator.scripts (engine : ScriptEngine) : Evaluator := ⟨engine.evaluate⟩

end LivePage
