import PayloadFlow.Config
import PayloadFlow.Extract.Broker.Transformation
import PayloadFlow.Extract.Consumer.Handler
import PayloadFlow.Extract.Error
import PayloadFlow.Extract.Producer

/-!
# Contracts of a source

The contracts that a source gives in one of the three roles.
-/

namespace PayloadFlow

open Script

def contractsOf (config : Config) (role : Role) (path : String) (program : Node) :
    List Contract :=
  match role with
  | .producer =>
      (Producer.contracts config.broker.entryPoints path program).map .producer
  | .broker =>
      (Broker.contracts config.broker.prepareFunctions config.broker.generators path program).map
        .broker
  | .consumer =>
      (Consumer.contracts config.consumer.handlerPrefixes config.consumer.registrationCalls path
        program).map .consumer

/-- The contracts of a source in a role.  The path decides how the source is read
and is noted in the contracts. -/
def extract (config : Config) (role : Role) (path source : String) :
    Except ExtractionError (List Contract) :=
  match parseSource path source with
  | .ok program => .ok (contractsOf config role path program)
  | .error e => .error e

end PayloadFlow
