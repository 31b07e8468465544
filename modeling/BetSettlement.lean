import BetSettlement.BetMaker.Reconciler
import BetSettlement.BetMaker.Consumer
import BetSettlement.Placement
import BetSettlement.Cancellation
import BetSettlement.LineProvider.Coefficients
import BetSettlement.BetMaker.Delivery
import BetSettlement.Listing
import BetSettlement.BetMaker.Absence
import BetSettlement.BetMaker.SessionScope
import BetSettlement.BetMaker.Lifespan
import BetSettlement.BetMaker.Waiting
import BetSettlement.BusRefinement
import BetSettlement.LineProvider.Routes
import BetSettlement.LineProvider.Answers
import BetSettlement.ReadBack
import BetSettlement.Proxy
import BetSettlement.BetMaker.Migrations
import BetSettlement.Wire
import BetSettlement.BetMaker.Interruption
import BetSettlement.BetMaker.Shutdown
