import BankingAi.Json

/-!
# Exceptions

`AppError` is the application's error hierarchy: the class, its message (the class default when the
given one is empty) and details. `Exn` is any exception a call may raise: an application error or
another one, of which the class name and the text are kept.
-/

namespace BankingAi

/-- The classes under `AppError`. -/
inductive AppErrorClass where
  | appError | validation | authentication | authorization | notFound | conflict | rateLimit
  | workflowState | llmProvider | modelRouter | agent
deriving DecidableEq, Repr

namespace AppErrorClass

/-- `type(exc).__name__`. -/
def name : AppErrorClass → String
  | appError => "AppError"
  | validation => "ValidationAppError"
  | authentication => "AuthenticationError"
  | authorization => "AuthorizationError"
  | notFound => "NotFoundError"
  | conflict => "ConflictError"
  | rateLimit => "RateLimitError"
  | workflowState => "WorkflowStateError"
  | llmProvider => "LLMProviderError"
  | modelRouter => "ModelRouterError"
  | agent => "AgentError"

/-- The class attribute `message`. -/
def message : AppErrorClass → String
  | appError => "An unexpected error occurred."
  | validation => "Request validation failed."
  | authentication => "Authentication required or failed."
  | authorization => "You do not have permission to perform this action."
  | notFound => "Resource not found."
  | conflict => "The request conflicts with the current state."
  | rateLimit => "Too many requests."
  | workflowState => "The workflow is not in a state that allows this transition."
  | llmProvider => "An LLM provider call failed."
  | modelRouter => "No LLM provider was able to serve the request."
  | agent => "An agent failed to complete its task."

end AppErrorClass

structure AppError where
  cls : AppErrorClass
  message : String
  details : List (String × Json)

/-- `cls(message, details=details)`. -/
def AppErrorClass.new (cls : AppErrorClass) (message : String) (details : List (String × Json)) :
    AppError :=
  ⟨cls, if message = "" then cls.message else message, details⟩

inductive Exn where
  | app (e : AppError)
  | other (typeName text : String)

namespace Exn

def new (cls : AppErrorClass) (message : String) (details : List (String × Json)) : Exn :=
  app (cls.new message details)

/-- `type(exc).__name__`. -/
def typeName : Exn → String
  | app e => e.cls.name
  | other n _ => n

/-- `str(exc)`. -/
def text : Exn → String
  | app e => e.message
  | other _ t => t

/-- Whether the exception is an instance of exactly this application class. -/
def IsApp (cls : AppErrorClass) : Exn → Prop
  | app e => e.cls = cls
  | other _ _ => False

instance (cls : AppErrorClass) : DecidablePred (IsApp cls)
  | app e => inferInstanceAs (Decidable (e.cls = cls))
  | other _ _ => inferInstanceAs (Decidable False)

end Exn
end BankingAi
